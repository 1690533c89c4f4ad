/-
Store.Crashes -- what a crash leaves of an entry

A put writes its file before the metadata, so an entry whose metadata is there is whole,
and an opening goes by that.  A removal unlinks in the order of its walk: cut short
behind a file and ahead of the metadata, it leaves a directory that an opening takes for
an entry.

* `crash_atomic`: but for that, an entry is gone after an opening or serves every file it
  acknowledged, and no crash loses an entry no removal has acted on.
* `removal_comes_back`: a delete cut short there brings the entry back without its file.
-/
import TypstMcp.Store.Opening
import TypstMcp.Store.Volume

namespace TypstMcp.Store

open TypstMcp.Theory TypstMcp.Theory.Table
open TypstMcp.Theory.FileTree (Closed fileBytes bytesIn bytesIn_le_fileBytes isDir_iff
  lookup_createDirAll lookup_unlink_le)
open TypstMcp.Auth (TenantId)

set_option autoImplicit false
set_option linter.unusedSectionVars false

variable {T : Type} [DecidableEq T]

/-- No removal has unlinked a file of a directory whose metadata is still there; a volume holds less
than `2 ^ 64` bytes. -/
def Untorn (w : World T) : Prop := w.torn = [] ∧ fileBytes w.disk < u64Size

/-- Operations that store nothing under the name of the metadata. -/
def plainStarts (limits : Limits) (codec : MetaCodec) (_ : T) (p : StoreProg Outcome) (_ : World T) :
    Prop :=
  ∃ op : Op, p = op.program limits codec ∧ op.Plain

variable {limits : Limits} {codec : MetaCodec} {boot t : T} {w w' v v' : World T}
variable {allowed : Choice → Prop}

/-! ## Openings cut short -/

theorem acked_walking {c : Call} {reply : Reply c} (walking : c.Walking)
    (answered : answers allowed t c w reply w') : w'.acked = w.acked := by
  obtain ⟨_, choice, _, handled⟩ := answered
  obtain rfl : (handle t choice c w).2 = w' := congrArg Prod.snd handled
  exact (walking_walked walking choice w).acked

theorem acked_begun {α : Type} {p : StoreProg α} (walking : p.Calls Call.Walking)
    (begun : p.Begun (answers allowed t) w w') : w'.acked = w.acked := by
  refine begun.keeps (fun s => s.acked = w.acked) ?_ walking rfl
  intro c s reply s' walking same answered
  exact (acked_walking walking answered).trans same

/-- A rebuild has not published yet, or it is over. -/
theorem rebuildIndex_begun (begun : (rebuildIndex limits codec).Begun (answers allowed t) w w') :
    w'.acked = w.acked ∨ ∃ value, Alone allowed t (rebuildIndex limits codec) w value w' := by
  rcases begun with rfl | ⟨reply, mid, listed, more⟩
  · exact .inl rfl
  have first : mid.acked = w.acked := acked_walking (show (Call.readDir []).Walking from trivial) listed
  simp only [Prog.ret_bind] at more
  cases reply with
  | error kind => exact .inr ⟨(), .error kind, mid, listed, rfl, more⟩
  | ok names =>
      rcases Prog.begun_bind more with walking | ⟨index, w1, walked, more⟩
      · refine .inl ((acked_begun ?_ walking).trans first)
        exact (scanning_scanTenants _ _).mono fun _ => Call.Scanning.walking
      have second : w1.acked = mid.acked :=
        (walking_exec ((scanning_scanTenants _ _).mono fun _ => Call.Scanning.walking) walked).acked
      rcases Prog.begun_bind more with evicting | ⟨index', w2, evicted, more⟩
      · exact .inl ((acked_begun (walking_evictLocked _ _) evicting).trans (second.trans first))
      have third : w2.acked = w1.acked := (walking_exec (walking_evictLocked _ _) evicted).acked
      have same : w2.acked = w.acked := third.trans (second.trans first)
      rcases more with rfl | ⟨_, w3, locked, more⟩
      · exact .inl same
      rcases more with rfl | ⟨_, w4, unlocked, rfl⟩
      · obtain ⟨_, choice, _, handled⟩ := locked
        obtain rfl : (handle t choice (.lock .other) w2).2 = w' := congrArg Prod.snd handled
        exact .inl same
      · refine .inr ⟨(), .ok names, mid, listed, ?_⟩
        simp only [Prog.ret_bind]
        refine Prog.exec_bind.2 ⟨index, w1, walked, ?_⟩
        refine Prog.exec_bind.2 ⟨index', w2, evicted, ?_⟩
        exact ⟨_, w3, locked, _, w', unlocked, rfl, rfl⟩

/-- An opening is still making its directories, or it has made them. -/
theorem openStore_begun (begun : (openStore limits codec).Begun (answers allowed t) w w') :
    w'.acked = w.acked ∨ ∃ disk, Prepared w.disk disk ∧
      (openRest limits codec).Begun (answers allowed t) { w with disk := disk } w' := by
  rcases begun with rfl | ⟨_, mid, ⟨_, choice, _, made⟩, more⟩
  · exact .inl rfl
  simp only [handle, World.attempt] at made
  cases rootMade : w.disk.createDirAll [] with
  | error kind =>
      rw [rootMade] at made
      obtain ⟨rfl, rfl⟩ := Prod.mk.inj made
      obtain rfl : w' = w := more
      exact .inl rfl
  | ok disk1 =>
      rw [rootMade] at made
      obtain ⟨rfl, rfl⟩ := Prod.mk.inj made
      rcases more with rfl | ⟨_, mid, ⟨_, choice', _, made⟩, more⟩
      · exact .inl rfl
      simp only [handle, World.attempt] at made
      cases tmpMade : disk1.createDirAll tmpDir with
      | error kind =>
          rw [tmpMade] at made
          obtain ⟨rfl, rfl⟩ := Prod.mk.inj made
          have same : w' = { w with disk := disk1 } := more
          rw [same]
          exact .inl rfl
      | ok disk2 =>
          rw [tmpMade] at made
          obtain ⟨rfl, rfl⟩ := Prod.mk.inj made
          exact .inr ⟨disk2, lookup_prepared rootMade tmpMade, more⟩

theorem Prepared.root {disk start : FileTree} (prepared : Prepared disk start) : start.isDir [] := by
  rw [isDir_iff, prepared, if_pos (.inl rfl)]

/-- What an entry acknowledged is forgotten only with the entry. -/
theorem acked_opening (closed : Closed w.disk)
    (begun : (openStore limits codec).Begun (answers anyChoice t) w w') (key : Key) :
    w'.acked key = w.acked key ∨ Bare w'.disk key := by
  rcases openStore_begun begun with same | ⟨disk, prepared, more⟩
  · exact .inl (congrFun same key)
  have over_ : ∀ {value : Unit} {u : World T},
      Alone anyChoice t (rebuildIndex limits codec) { w with disk := disk } value u →
      u.acked key = w.acked key ∨ Bare u.disk key := by
    intro value u ran
    obtain ⟨index, index', rebuilt, -, -, acked, -⟩ := rebuildIndex_exec prepared.root ran
    cases found : index'.entries.lookup key with
    | none => exact .inr (rebuilt.bare (prepared.reached closed key) found)
    | some entry =>
        rw [acked, ackedAfter_listed found]
        exact .inl rfl
  rcases Prog.begun_bind more with rebuilding | ⟨value, u, ran, more⟩
  · rcases rebuildIndex_begun rebuilding with same | ⟨value, ran⟩
    · exact .inl (congrFun same key)
    · exact over_ ran
  · rcases more with rfl | ⟨_, u', ⟨_, choice, _, handled⟩, rfl⟩
    · exact over_ ran
    · obtain rfl : (handle t choice .opened u).2 = w' := congrArg Prod.snd handled
      have kept : u.acked key = w.acked key ∨ Bare u.disk key := over_ ran
      exact kept

/-- An opening puts nothing where there was no entry. -/
theorem bare_booting {c : Call} {key : Key} (booting : c.Booting) (choice : Choice)
    (bare : Bare w.disk key) : Bare (handle t choice c w).2.disk key := by
  cases c with
  | createDirAll p =>
      show Bare (w.attempt (w.disk.createDirAll p)).2.disk key
      cases made : w.disk.createDirAll p with
      | error kind => exact bare
      | ok disk =>
          intro q under
          have short : p.length < 3 := by
            obtain rfl | rfl : p = [] ∨ p = tmpDir := booting
            · exact Nat.zero_lt_succ _
            · exact Nat.lt_of_sub_eq_succ rfl
          have apart : ¬ q <+: p := by
            intro inside
            have := (under.trans inside).length_le
            rw [entryDir_length] at this
            omega
          show disk.lookup q = none
          rw [lookup_createDirAll made, if_neg apart]
          exact bare q under
  | unlink p =>
      intro q under
      show (w.disk.unlink p).lookup q = none
      cases found : (w.disk.unlink p).lookup q with
      | none => rfl
      | some node =>
          have before := lookup_unlink_le found
          rw [bare q under] at before
          cases before
  | walk p =>
      show Bare (w.startRemoval t p).disk key
      rw [startRemoval_disk]
      exact bare
  | now | newUlid | pathExists _ | createFile _ | writeAll _ _ | rename _ _ | removeFile _
  | countExpired _ => exact booting.elim
  | _ => exact bare

/-! ## The store after a crash -/

/-- **A crash and the openings cut short after it leave every entry whole**, where each came with no
entry torn. -/
theorem fallen_down (inv : Inv codec True w) (fallen : Fallen limits codec boot Untorn w v) :
    Down codec True v ∧ ∀ key, v.Serves key := by
  have whole : ∀ {s : World T}, (∀ key, entryDir key ∈ s.torn ∨ s.Serves key) → Untorn s →
      ∀ key, s.crash.Serves key := by
    intro s serves untorn key
    refine (serves key).resolve_left ?_
    rw [untorn.1]
    exact List.not_mem_nil
  induction fallen with
  | crashed may => exact ⟨down_crash inv (.inl trivial), whole inv.serves may⟩
  | @again v v' past begun may ih =>
      have down := down_begun (booting_openStore limits codec) ih.1 begun
      have fallen : Down codec True (World.crash { v' with up := false }) :=
        down_crash down.inv (.inl trivial)
      exact ⟨fallen, whole down.inv.serves may⟩

/-- They forget what an entry acknowledged only with the entry. -/
theorem fallen_acked (inv : Inv codec True w) (fallen : Fallen limits codec boot Untorn w v)
    (key : Key) : v.acked key = w.acked key ∨ Bare v.disk key := by
  induction fallen with
  | crashed _ => exact .inl rfl
  | @again v v' past begun may ih =>
      have closed : Closed v.disk := (fallen_down inv past).1.inv.closed
      rcases ih with same | bare
      · rcases acked_opening closed begun key with kept | gone
        · exact .inl (kept.trans same)
        · exact .inr gone
      · refine .inr (begun.keeps (fun s => Bare s.disk key) ?_ (booting_openStore limits codec) bare)
        rintro c s reply s' booting bare ⟨_, choice, _, handled⟩
        obtain rfl : (handle boot choice c s).2 = s' := congrArg Prod.snd handled
        exact bare_booting booting choice bare

theorem Fallen.fits (fallen : Fallen limits codec boot Untorn w v) : fileBytes v.disk < u64Size := by
  cases fallen with
  | crashed may => exact may.2
  | again _ _ may => exact may.2

/-- An open store on which no call is running. -/
structure Ready (codec : MetaCodec) (w : World T) : Prop extends Idle codec True w where
  doomed : ∀ t, w.doomed t = []

theorem ready_fresh (codec : MetaCodec) : Ready codec (World.fresh : World T) :=
  ⟨⟨inv_fresh codec True, rfl, rfl⟩, fun _ => rfl⟩

theorem Ready.run (boot : T) {c : StoreConf T} (ready : Ready codec w)
    (run : Reaches (calmAnswers anyChoice) (plainStarts limits codec) (idleConf w) c) :
    Inv codec True c.state := by
  have start : PoolSafe (calmAnswers fun _ => True) (Guar codec True boot) (Inv codec True) Fresh
      (fun t _ => Resting codec True t [] anything) (idleConf w) := by
    refine ⟨ready.inv, fun t _ => ⟨ready.up, ready.doomed t, fun purpose owned => ?_⟩,
      fun t p found => ?_⟩
    · have free : w.owner = none := ready.free
      rw [show w.owner = some (t, purpose) from owned] at free
      cases free
    · cases found
  have each : ∀ t p (s : World T), plainStarts limits codec t p s →
      ∃ op : Op, p = op.program limits codec ∧ (True → op.Plain) := by
    rintro t p s ⟨op, same, named⟩
    exact ⟨op, same, fun _ => named⟩
  exact (pool_safe each start run).state

/-- What an opening hands out after a crash. -/
theorem ready_opened (down : Down codec True v) (serves : ∀ key, v.Serves key)
    (idle : v.up = false ∧ ∀ t, v.doomed t = []) (opened : Opens limits codec boot v w') :
    Ready codec w' := by
  obtain ⟨inv, -⟩ := openStore_inv down serves opened
  obtain ⟨_, _, _, _, _, _, free, _, _, isUp, doomed, _⟩ := openStore_exec opened rfl
  refine ⟨⟨inv, isUp, free⟩, fun t => ?_⟩
  rw [doomed idle.1]
  exact idle.2 t

theorem Fallen.idle {mayCrash : World T → Prop} (fallen : Fallen limits codec boot mayCrash w v) :
    v.up = false ∧ ∀ t, v.doomed t = [] := by
  cases fallen with
  | crashed _ => exact ⟨rfl, fun _ => rfl⟩
  | again _ _ _ => exact ⟨rfl, fun _ => rfl⟩

theorem ready_life (life : Life limits codec boot Untorn (calmAnswers anyChoice)
    (plainStarts limits codec) w) : Ready codec w := by
  induction life with
  | fresh => exact ready_fresh codec
  | reopened past run fallen opened ready =>
      obtain ⟨down, serves⟩ := fallen_down (ready.run boot run) fallen
      exact ready_opened down serves fallen.idle opened

/-! ## What an entry serves -/

/-- While the entry lives, every read of the file answers `bytes`. -/
def ReadsAs (w : World T) (key : Key) (entry : Entry) (name : String) (bytes : Bytes) : Prop :=
  ∀ t now, now < entry.expiresAt →
    (∃ w', Alone (clock now) t (Store.get key.tenant key.kind key.id name) w (.ok bytes) w') ∧
    ∀ result w', Alone (clock now) t (Store.get key.tenant key.kind key.id name) w result w' →
      result = .ok bytes

/-- Nothing of the entry is left, or it serves every one of the files. -/
def AllOrNothing (w : World T) (key : Key) (files : List (String × Bytes)) : Prop :=
  match w.index.entries.lookup key with
  | none => Bare w.disk key
  | some entry => ∀ name bytes, (safeName name, bytes) ∈ files → safeName name ≠ metaName →
      ReadsAs w key entry name bytes

theorem readsAs_of_there {key : Key} {entry : Entry} {name : String} {bytes : Bytes}
    (idle : Idle codec True w) (valid : validateId key.kind key.id = .ok key.id)
    (found : w.index.entries.lookup key = some entry)
    (there : w.disk.lookup (entryDir key ++ [safeName name]) = some (.file bytes)) :
    ReadsAs w key entry name bytes := by
  intro t now live
  have answer := getAt_listed valid found live there
  constructor
  · obtain ⟨w', read⟩ := get_answered (t := t) now idle valid name
    rw [answer] at read
    exact ⟨w', read⟩
  · intro result w' read
    obtain ⟨-, ⟨error, invalid, -⟩ | ⟨choice, clocked, same⟩⟩ := get_exec idle read
    · rw [valid] at invalid
      cases invalid
    · obtain rfl : choice.now = now := clocked
      exact same.trans answer

/-- **An opening after a crash that tore no entry**: nothing is left of an entry, or it serves what
it acknowledged. -/
theorem allOrNothing_opened (inv : Inv codec True w) (fallen : Fallen limits codec boot Untorn w v)
    (opened : Opens limits codec boot v w') (key : Key) : AllOrNothing w' key (w.acked key) := by
  obtain ⟨down, serves⟩ := fallen_down inv fallen
  have ready : Ready codec w' := ready_opened down serves fallen.idle opened
  obtain ⟨-, good⟩ := openStore_inv down serves opened
  obtain ⟨start, index, index', prepared, rebuilt, rfl, -, acked, -⟩ := openStore_exec opened rfl
  have prepared : Prepared v.disk start := prepared
  unfold AllOrNothing
  cases found : w'.index.entries.lookup key with
  | none => exact (good key).unlisted found
  | some entry =>
      intro name bytes inside payloadFile
      have adopts := (rebuilt.adopts found).2
      have kept : v.acked key = w.acked key := by
        refine (fallen_acked inv fallen key).resolve_right fun bare => ?_
        have dir := isDir_iff.1 adopts.dir
        rw [prepared.below List.prefix_rfl, bare _ List.prefix_rfl] at dir
        cases dir
      have held : (safeName name, bytes) ∈ w'.acked key := by
        rw [acked, ackedAfter_listed found]
        exact kept ▸ inside
      refine readsAs_of_there ready.toIdle ?_ found
        (((good key).listed entry found).files _ _ held payloadFile)
      cases valid : validateId key.kind key.id with
      | error error =>
          have ok := adopts.valid
          rw [valid] at ok
          cases ok
      | ok id => rw [validateId_ok valid]

/-! ## Entries no removal acts on -/

/-- Nothing below the entry is unlinked, and every index published lists it. -/
def Call.Spares (key : Key) : Call → Prop
  | .unlink p => ¬ entryDir key <+: p
  | .unlock index _ => (index.entries.lookup key).isSome
  | _ => True

def sparing (key : Key) : CallStep Call Reply T (World T) :=
  fun t c w reply w' => c.Spares key ∧ calmAnswers anyChoice t c w reply w'

/-- An opening takes an entry up by its metadata. -/
theorem adopts_of_recorded {disk : FileTree} {key : Key} (laid : Laid disk) (info : InfoAt codec disk key)
    (fits : fileBytes disk < u64Size) (recorded : Recorded disk key) :
    ∃ entry, Adopts codec disk key entry := by
  obtain ⟨node, found⟩ := Option.isSome_iff_exists.1 recorded
  obtain ⟨raw, rfl⟩ := placed_file (laid.shape _ _ found)
  obtain ⟨stored, decoded, id, kind⟩ := info raw found
  have dir : disk.isDir (entryDir key) := laid.closed _ _ recorded
  have valid := (placed_entry (laid.shape _ _ (isDir_iff.1 dir))).2
  refine ⟨{ stored with bytes := bytesIn metaName disk (entryDir key) }, ⟨raw, stored, found, decoded, rfl⟩,
    id, kind, ?_, dir, ?_, ?_⟩
  · rw [valid]
    rfl
  · exact fun name node _ there => placed_file (laid.shape _ _ there)
  · exact (bytesIn_le_fileBytes _ _ _).trans_lt fits

theorem acked_spared {key : Key} {c : Call} (spares : c.Spares key) (choice : Choice) :
    w.acked key ⊆ (handle t choice c w).2.acked key := by
  cases c with
  | unlock index note =>
      show w.acked key ⊆ w.ackedAfter index note key
      have listed : (index.entries.lookup key).isSome := spares
      unfold World.ackedAfter
      rw [if_pos listed]
      split
      · split
        · exact List.subset_cons_self _ _
        · exact List.Subset.refl _
      · exact List.Subset.refl _
  | lock purpose => exact List.Subset.refl _
  | _ => rw [(quiet_shared (by trivial) choice w).acked]; exact List.Subset.refl _

/-- **No other call takes the metadata or what was acknowledged.** -/
theorem spared_run {s c : StoreConf T} {key : Key}
    (pool : ∀ t p, s.pool t = some p → p.Calls (Call.Tidy True)) (recorded : Recorded s.state.disk key)
    (run : Reaches (sparing key) (plainStarts limits codec) s c) :
    Recorded c.state.disk key ∧ s.state.acked key ⊆ c.state.acked key := by
  have each : ∀ t (call : Call) (u : World T) reply u', call.Tidy True →
      Recorded u.disk key ∧ s.state.acked key ⊆ u.acked key → sparing key t call u reply u' →
      Recorded u'.disk key ∧ s.state.acked key ⊆ u'.acked key := by
    rintro t call u reply u' tidy ⟨recorded, kept⟩ ⟨spares, -, -, choice, -, handled⟩
    obtain rfl : (handle t choice call u).2 = u' := congrArg Prod.snd handled
    refine ⟨recorded_call tidy choice ?_ recorded, List.Subset.trans kept (acked_spared spares choice)⟩
    rintro p rfl
    exact spares
  refine (reaches_calls each ?_ ⟨recorded, List.Subset.refl _⟩ pool run).1
  rintro t p u ⟨op, rfl, named⟩
  exact tidy_program op fun _ => named

theorem up_call {c : Call} (choice : Choice) (up : w.up = true) : (handle t choice c w).2.up = true := by
  have attempt : ∀ outcome, (w.attempt outcome).2.up = true := by
    intro outcome
    cases outcome <;> exact up
  cases c with
  | createDirAll p | createFile p | rename p q | removeFile p => exact attempt _
  | walk p =>
      show (w.startRemoval t p).up = true
      unfold World.startRemoval
      split <;> exact up
  | opened => rfl
  | _ => exact up

/-- Along a run the store stays open, and its calls are tidy. -/
theorem Ready.open_ {c : StoreConf T} (ready : Ready codec w)
    (run : Reaches (calmAnswers anyChoice) (plainStarts limits codec) (idleConf w) c) :
    c.state.up = true ∧ ∀ t p, c.pool t = some p → p.Calls (Call.Tidy True) := by
  have each : ∀ t (call : Call) (u : World T) reply u', call.Tidy True → u.up = true →
      calmAnswers anyChoice t call u reply u' → u'.up = true := by
    rintro t call u reply u' - up ⟨-, -, choice, -, handled⟩
    obtain rfl : (handle t choice call u).2 = u' := congrArg Prod.snd handled
    exact up_call choice up
  refine reaches_calls each ?_ (show (idleConf w).state.up = true from ready.up) ?_ run
  · rintro t p u ⟨op, rfl, named⟩
    exact tidy_program op fun _ => named
  · intro t p found
    cases found

/-- **What a crash leaves of an entry.**  Whatever ran before, the opening after it leaves nothing of
the entry or serves all it acknowledged; and one no removal acts on is taken up again with all of
that, and goes only for a ceiling. -/
theorem crash_atomic {c : StoreConf T}
    (past : Life limits codec boot Untorn (calmAnswers anyChoice) (plainStarts limits codec) w)
    (run : Reaches (calmAnswers anyChoice) (plainStarts limits codec) (idleConf w) c)
    (fallen : Fallen limits codec boot Untorn c.state v) (opened : Opens limits codec boot v w')
    (key : Key) :
    AllOrNothing w' key (c.state.acked key) ∧
    ∀ s : StoreConf T, Reaches (calmAnswers anyChoice) (plainStarts limits codec) (idleConf w) s →
      (s.state.index.entries.lookup key).isSome → s.state.Undoomed key → ¬ s.state.Storing →
      Reaches (sparing key) (plainStarts limits codec) s c → v = c.state.crash →
      s.state.acked key ⊆ c.state.acked key ∧
      ∃ index, (index.entries.lookup key).isSome ∧ Evicts limits (ranksOf anyChoice) index w'.index := by
  have ready := ready_life past
  have inv := ready.run boot run
  refine ⟨allOrNothing_opened inv fallen opened key, ?_⟩
  rintro s before listed undoomed still more rfl
  obtain ⟨up, pool⟩ := ready.open_ before
  obtain ⟨entry, found⟩ := Option.isSome_iff_exists.1 listed
  have recorded : Recorded s.state.disk key := by
    obtain ⟨raw, there, -⟩ :=
      (((ready.run boot before).good up still key undoomed).listed entry found).info
    exact Option.isSome_iff_exists.2 ⟨_, there⟩
  obtain ⟨recorded, kept⟩ := spared_run pool recorded more
  have fits : fileBytes c.state.disk < u64Size := fallen.fits
  obtain ⟨entry, adopts⟩ := adopts_of_recorded inv.laid (inv.info (.inl trivial) key) fits recorded
  obtain ⟨start, index, index', prepared, rebuilt, rfl, -⟩ := openStore_exec opened rfl
  obtain ⟨middle, scanned, -⟩ := rebuilt.scanned
  refine ⟨kept, index, Option.isSome_iff_exists.2 ⟨entry, ?_⟩, rebuilt.evicts⟩
  exact (scanned.listed key entry).2 ((reached_adopts prepared inv.closed).2 adopts)

/-! ## A delete cut short -/

/-- The directory lists its payload files ahead of the metadata. -/
def payloadFirst : Choice :=
  { reading 0 with pathRank := fun p => if p.getLast? = some metaName then 1 else 0 }

/-- A file is put, and its entry deleted as far as the first unlink. -/
def cutDelete : List StoreMove :=
  cutPut 13 ++ (launch 1 (.delete someKey.tenant someKey.kind someKey.id) ++
    List.replicate 5 (.call 1 payloadFirst))

def PlainLaunches (moves : List StoreMove) : Prop :=
  ∀ t p, Move.start t p ∈ moves → ∃ op : Op, p = op.program smallLimits serde ∧ op.Plain

theorem plain_played {moves : List StoreMove} {c : StoreConf (Fin 3)} (launches : PlainLaunches moves)
    (ended : played calmOrder moves = some c) :
    Reaches (calmAnswers anyChoice) (plainStarts smallLimits serde) (idleConf World.fresh) c :=
  Conf.play_reaches (fun _ t p inside => launches t p inside)
    (fun _ _ _ _ free => calmAnswers_of_free trivial free) ended

theorem plainLaunches_cutPut (count : Nat) : PlainLaunches (cutPut count) := by
  intro t p inside
  rcases List.mem_append.1 inside with started | called
  · obtain ⟨-, rfl⟩ : t = 0 ∧ p = _ := by simpa [launch] using started
    exact ⟨putOp "a.pdf" [1], rfl, show safeName "a.pdf" ≠ metaName by decide⟩
  · cases List.eq_of_mem_replicate called

theorem plainLaunches_cutDelete : PlainLaunches cutDelete := by
  intro t p inside
  rcases List.mem_append.1 inside with put | deleted
  · exact plainLaunches_cutPut 13 t p put
  rcases List.mem_append.1 deleted with started | called
  · obtain ⟨-, rfl⟩ : t = 1 ∧ p = _ := by simpa [launch] using started
    exact ⟨_, rfl, trivial⟩
  · cases List.eq_of_mem_replicate called

/-- The put is whole before the crash, and after it. -/
theorem crash_atomic_put : ∃ (c : StoreConf (Fin 3)) (w' : World (Fin 3)),
    c.state.acked someKey = [("a.pdf", [1])] ∧ (w'.index.entries.lookup someKey).isSome ∧
      AllOrNothing w' someKey (c.state.acked someKey) := by
  obtain ⟨c, ended, checked⟩ : ∃ c, played calmOrder (cutPut 13) = some c ∧
      (decide (c.state.acked someKey = [("a.pdf", [1])]) && decide (c.state.torn = []) &&
        decide (fileBytes c.state.disk < u64Size) &&
        (reopen c).any fun x => x.1.isOk && (x.2.index.entries.lookup someKey).isSome) = true :=
    (Option.any_eq_true _ _).1 (by decide +kernel)
  simp only [Bool.and_eq_true, decide_eq_true_eq] at checked
  obtain ⟨⟨⟨acked, whole⟩, fits⟩, checked⟩ := checked
  obtain ⟨⟨result, w'⟩, played, checked⟩ := (Option.any_eq_true _ _).1 checked
  obtain ⟨ok, listed⟩ := Bool.and_eq_true_iff.1 checked
  cases result with
  | error _ => cases ok
  | ok _ =>
      have run := plain_played (plainLaunches_cutPut 13) ended
      exact ⟨c, w', acked, listed,
        (crash_atomic .fresh run (.crashed ⟨whole, fits⟩) (opens_reopen played) someKey).1⟩

/-- **A delete cut short brings its entry back without its file.** -/
theorem removal_comes_back :
    ¬∀ (c : StoreConf (Fin 3)) (w' : World (Fin 3)),
      Reaches (calmAnswers anyChoice) (plainStarts smallLimits serde) (idleConf World.fresh) c →
      Opens smallLimits serde 0 c.state.crash w' →
      ∀ key, AllOrNothing w' key (c.state.acked key) := by
  intro claimed
  obtain ⟨c, ended, checked⟩ : ∃ c, played calmOrder cutDelete = some c ∧
      (decide (c.state.acked someKey = [("a.pdf", [1])]) &&
        (reopen c).any fun x => x.1.isOk &&
          ((x.2.index.entries.lookup someKey).any fun entry => decide (0 < entry.expiresAt)) &&
          ((Store.get someKey.tenant someKey.kind someKey.id "a.pdf").play (handle 0 (reading 0))
            (fun c w => unlocked w c) x.2).any fun y => !y.1.isOk) = true :=
    (Option.any_eq_true _ _).1 (by decide +kernel)
  simp only [Bool.and_eq_true, decide_eq_true_eq] at checked
  obtain ⟨acked, checked⟩ := checked
  obtain ⟨⟨result, w'⟩, opened, checked⟩ := (Option.any_eq_true _ _).1 checked
  simp only [Bool.and_eq_true] at checked
  obtain ⟨⟨ok, live⟩, missing⟩ := checked
  obtain ⟨entry, found, live⟩ := (Option.any_eq_true _ _).1 live
  obtain ⟨⟨answer, w''⟩, read, failed⟩ := (Option.any_eq_true _ _).1 missing
  cases result with
  | error _ => cases ok
  | ok _ =>
      have whole := claimed c w' (plain_played plainLaunches_cutDelete ended) (opens_reopen opened)
        someKey
      unfold AllOrNothing at whole
      rw [found, acked] at whole
      have serves := whole "a.pdf" [1] (by decide) (by decide) 0 0 (of_decide_eq_true live)
      have answered : ∀ (c : Call) (w : World (Fin 3)), unlocked w c = true →
          answers (clock 0) 0 c w (handle 0 (reading 0) c w).1 (handle 0 (reading 0) c w).2 :=
        fun c w free => answers_of_unlocked rfl free
      rw [serves.2 _ _ (Prog.exec_of_play answered read)] at failed
      cases failed

end TypstMcp.Store
