/-
Store.Atomic -- a put that fails has not happened

Any call of a put may fail, and the clean-up of the payload succeeds.  What a failed
put leaves behind is a `Residue`: empty directories on the way to the entry, and
temporary files.  No read sees either, and an opening walks past both.

* `putWithId_residue`: what a put that fails leaves.
* `put_atomic`: the index, what can be read, and what a reopening rebuilds are those
  from before the call.
-/
import TypstMcp.Store.Faults
import TypstMcp.Store.Lives
import TypstMcp.Store.Opening

namespace TypstMcp.Store

open TypstMcp.Theory TypstMcp.Theory.Table TypstMcp.Theory.FileTree
open TypstMcp.Auth (TenantId)

set_option autoImplicit false
set_option linter.unusedSectionVars false

variable {T : Type} [DecidableEq T]

/-- One call of thread `t`: answered, or failing, but for the clean-up of a file that is in place. -/
def cleaned (allowed : Choice → Prop) : CallStep Call Reply T (World T) := fun t c w reply w' =>
  faulty allowed t c w reply w' ∧
    ∀ p, c = .removeFile p → tmpDir <+: p ∨ answers allowed t c w reply w'

/-- A program run to its end where calls may fail and clean-ups do not. -/
abbrev Cleaned (allowed : Choice → Prop) (t : T) {α : Type} (p : StoreProg α) (w : World T)
    (value : α) (w' : World T) : Prop :=
  p.Exec (cleaned allowed t) w value w'

variable {allowed : Choice → Prop} {t : T} {α : Type} {w w' : World T} {value : α}

theorem faulty_of_cleaned {p : StoreProg α} (ran : Cleaned allowed t p w value w') :
    Faulty allowed t p w value w' :=
  ran.mono fun _ _ _ _ => And.left

/-! ## What is left behind -/

/-- A temporary file's place. -/
def Scratch (p : Path) : Prop := tmpDir <+: p ∧ p ≠ tmpDir

/-- Only temporary files differ. -/
def ScratchOnly (disk disk' : FileTree) : Prop := ∀ p, ¬ Scratch p → disk'.lookup p = disk.lookup p

/-- Temporary files apart, directories were made on the way to the entry, and no more. -/
def Residue (key : Key) (disk disk' : FileTree) : Prop :=
  ∀ p, ¬ Scratch p → disk'.lookup p = disk.lookup p ∨
    (p <+: entryDir key ∧ disk.lookup p = none ∧ disk'.lookup p = some .dir)

theorem scratchOnly_refl (disk : FileTree) : ScratchOnly disk disk := fun _ _ => rfl

theorem ScratchOnly.trans {a b c : FileTree} (first : ScratchOnly a b) (second : ScratchOnly b c) :
    ScratchOnly a c := fun p apart => (second p apart).trans (first p apart)

theorem ScratchOnly.residue {disk disk' : FileTree} (scratch : ScratchOnly disk disk') (key : Key) :
    Residue key disk disk' := fun p apart => .inl (scratch p apart)

theorem Residue.settle {key : Key} {a b c : FileTree} (residue : Residue key a b)
    (scratch : ScratchOnly b c) : Residue key a c := by
  intro p apart
  rw [scratch p apart]
  exact residue p apart

theorem scratch_part (ulid : String) : Scratch (partPath ulid) :=
  ⟨List.prefix_append _ _, by simp [partPath]⟩

theorem not_scratch_entry {key : Key} {p : Path} (under : entryDir key <+: p) : ¬ Scratch p :=
  fun scratch => tmp_not_entry scratch.1 under

theorem scratchOnly_of_ne {p : Path} (scratch : Scratch p) {disk disk' : FileTree}
    (elsewhere : ∀ q, q ≠ p → disk'.lookup q = disk.lookup q) : ScratchOnly disk disk' := by
  intro q apart
  apply elsewhere
  rintro rfl
  exact apart scratch

/-! ## Calls -/

theorem attempt_disk {outcome : Except ErrorKind FileTree} {P : FileTree → Prop} (still : P w.disk)
    (done : ∀ disk, outcome = .ok disk → P disk) : P (w.attempt outcome).2.disk := by
  cases outcome with
  | error kind => exact still
  | ok disk => exact done disk rfl

/-- What a call on a temporary file changes. -/
theorem touched_scratch {c : Call} {reply : Reply c} {p : Path} (scratch : Scratch p)
    (touches : c = .createFile p ∨ (∃ bytes, c = .writeAll p bytes) ∨ c = .removeFile p)
    (answered : faulty allowed t c w reply w') : ScratchOnly w.disk w'.disk := by
  rcases answered with ⟨_, choice, _, handled⟩ | ⟨disk, faults, rfl⟩
  · obtain rfl : (handle t choice c w).2 = w' := congrArg Prod.snd handled
    rcases touches with rfl | ⟨bytes, rfl⟩ | rfl
    · refine attempt_disk (scratchOnly_refl _) fun disk made => scratchOnly_of_ne scratch fun q ne => ?_
      rw [lookup_createFile made, if_neg ne]
    · exact scratchOnly_of_ne scratch fun q ne => lookup_writeAll_ne bytes ne
    · refine attempt_disk (scratchOnly_refl _) fun disk removed => scratchOnly_of_ne scratch fun q ne => ?_
      rw [lookup_removeFile removed, if_neg ne]
  · rcases touches with rfl | ⟨bytes, rfl⟩ | rfl
    · cases faults
      exact scratchOnly_refl _
    · cases faults with
      | still fails => exact scratchOnly_refl _
      | torn part => exact scratchOnly_of_ne scratch fun q ne => lookup_writeAll_ne _ ne
    · cases faults
      exact scratchOnly_refl _

/-- What the making of an entry's directory leaves, made or not. -/
theorem residue_createDirAll {key : Key} {reply : Except ErrorKind Unit}
    (answered : faulty allowed t (.createDirAll (entryDir key)) w reply w') :
    Residue key w.disk w'.disk := by
  have makes : ∀ {q : Path} {disk : FileTree}, q <+: entryDir key →
      w.disk.createDirAll q = .ok disk → Residue key w.disk disk := by
    intro q disk above made p _
    rw [lookup_createDirAll made]
    split
    · rename_i inside
      cases found : w.disk.lookup p with
      | none => exact .inr ⟨inside.trans above, rfl, rfl⟩
      | some node =>
          cases node with
          | dir => exact .inl rfl
          | file bytes => exact absurd found (createDirAll_clear made inside bytes)
    · exact .inl rfl
  rcases answered with ⟨_, choice, _, handled⟩ | ⟨disk, faults, rfl⟩
  · obtain rfl : (handle t choice (.createDirAll (entryDir key)) w).2 = w' :=
      congrArg Prod.snd handled
    exact attempt_disk ((scratchOnly_refl _).residue key) fun disk made => makes List.prefix_rfl made
  · cases faults with
    | still fails => exact (scratchOnly_refl _).residue key
    | parents above made => exact makes above made

/-- The calls that ask and change nothing. -/
theorem asking_same {c : Call} {reply : Reply c}
    (asks : c = .newUlid ∨ c = .now ∨ ∃ p, c = .pathExists p)
    (answered : faulty allowed t c w reply w') : w' = w := by
  have answered := faulty_answers (fun disk disk' faults => by
    rcases asks with rfl | rfl | ⟨p, rfl⟩ <;> cases faults <;> rename_i fails <;> exact fails) answered
  obtain ⟨_, choice, _, handled⟩ := answered
  rcases asks with rfl | rfl | ⟨p, rfl⟩ <;> exact (congrArg Prod.snd handled).symm

/-! ## A put -/

/-- **A file written through a temporary one** is in place, or nothing is. -/
theorem writeAtomic_cleaned {path : Path} {bytes : Bytes} {result : Except StoreError Unit}
    (ran : Cleaned allowed t (writeAtomic path bytes) w result w') :
    (∃ error, result = .error error ∧ ScratchOnly w.disk w'.disk) ∨
    (result = .ok () ∧ (∃ content, w'.disk.lookup path = some (.file content)) ∧
      ∀ p, ¬ Scratch p → p ≠ path → w'.disk.lookup p = w.disk.lookup p) := by
  obtain ⟨ulid, w1, minted, ran⟩ := ran
  obtain rfl := asking_same (.inl rfl) minted.1
  simp only [Prog.ret_bind] at ran
  obtain ⟨written, w3, wrote, ran⟩ := Prog.exec_bind.1 ran
  have part := scratch_part ulid
  have scratch3 : ScratchOnly w1.disk w3.disk := by
    obtain ⟨opened, w2, created, wrote⟩ := wrote
    have scratch2 := touched_scratch part (.inl rfl) created.1
    cases opened with
    | error kind =>
        obtain ⟨-, rfl⟩ := wrote
        exact scratch2
    | ok _ =>
        obtain ⟨_, w3', filled, -, rfl⟩ := wrote
        exact scratch2.trans (touched_scratch part (.inr (.inl ⟨bytes, rfl⟩)) filled.1)
  cases written with
  | error kind =>
      obtain ⟨rfl, rfl⟩ := ran
      exact .inl ⟨_, rfl, scratch3⟩
  | ok _ =>
      obtain ⟨moved, w4, renamed, ran⟩ := ran
      have still : (∃ kind, moved = .error kind ∧ w4.disk = w3.disk) ∨
          (moved = .ok () ∧ w3.disk.rename (partPath ulid) path = .ok w4.disk) := by
        rcases renamed.1 with ⟨_, choice, _, handled⟩ | ⟨disk, faults, rfl⟩
        · have handled : w3.attempt (w3.disk.rename (partPath ulid) path) = (moved, w4) := handled
          cases outcome : w3.disk.rename (partPath ulid) path with
          | error kind =>
              rw [outcome] at handled
              obtain ⟨rfl, rfl⟩ := Prod.mk.inj handled
              exact .inl ⟨kind, rfl, rfl⟩
          | ok disk =>
              rw [outcome] at handled
              obtain ⟨rfl, rfl⟩ := Prod.mk.inj handled
              exact .inr ⟨rfl, rfl⟩
        · cases faults with
          | still fails =>
              cases moved with
              | error kind => exact .inl ⟨kind, rfl, rfl⟩
              | ok _ => exact absurd fails id
      obtain ⟨kind, rfl, same⟩ | ⟨rfl, inPlace⟩ := still
      · obtain ⟨_, w5, removed, rfl, rfl⟩ := ran
        refine .inl ⟨_, rfl, ?_⟩
        rw [← same] at scratch3
        exact scratch3.trans (touched_scratch part (.inr (.inr rfl)) removed.1)
      · obtain ⟨rfl, rfl⟩ := ran
        refine .inr ⟨rfl, ?_, fun p apart ne => ?_⟩
        · obtain ⟨content, -, there⟩ := lookup_rename inPlace path
          exact ⟨content, there.trans (if_pos rfl)⟩
        · obtain ⟨_, -, there⟩ := lookup_rename inPlace p
          rw [there, if_neg ne, if_neg]
          · exact scratch3 p apart
          · rintro rfl
            exact apart part

variable {limits : Limits} {codec : MetaCodec} {key : Key} {name : String} {bytes : Bytes}
variable {info : Meta} {index : Index}

theorem putLocked_residue {error : StoreError} {index' : Index} {note : Note}
    (ran : Cleaned allowed t (putLocked limits codec key name bytes info index) w
      (.error error, index', note) w') : Residue key w.disk w'.disk := by
  unfold putLocked at ran
  dsimp only at ran
  split at ran
  · obtain ⟨-, rfl⟩ := ran
    exact (scratchOnly_refl _).residue key
  obtain ⟨made, w1, first, ran⟩ := ran
  have residue := residue_createDirAll first.1
  simp only [Prog.ret_bind] at ran
  split at ran
  · obtain ⟨-, rfl⟩ := ran
    exact residue
  obtain ⟨there, w2, second, ran⟩ := ran
  have same : w2 = w1 := asking_same (.inr (.inr ⟨_, rfl⟩)) second.1
  obtain ⟨_, choice, _, handled⟩ :=
    faulty_answers (fun _ _ faults => by cases faults with | still fails => exact fails) second.1
  obtain ⟨rfl, -⟩ := Prod.mk.inj handled
  subst same
  simp only [Prog.ret_bind] at ran
  split at ran
  · obtain ⟨-, rfl⟩ := ran
    exact residue
  rename_i absent
  have absent : w2.disk.lookup (entryDir key ++ [safeName name]) = none := by
    simpa [FileTree.pathExists] using absent
  obtain ⟨written, w3, third, ran⟩ := Prog.exec_bind.1 ran
  obtain ⟨_, rfl, scratch⟩ | ⟨rfl, ⟨content, placed⟩, others⟩ := writeAtomic_cleaned third
  · obtain ⟨-, rfl⟩ := ran
    exact residue.settle scratch
  obtain ⟨now, w4, fourth, ran⟩ := ran
  obtain rfl := asking_same (.inr (.inl rfl)) fourth.1
  simp only [Prog.ret_bind] at ran
  obtain ⟨recorded, w5, fifth, ran⟩ := Prog.exec_bind.1 ran
  obtain ⟨_, rfl, scratch⟩ | ⟨rfl, -, -⟩ := writeAtomic_cleaned fifth
  · -- the payload is taken back
    obtain ⟨_, w6, sixth, -, last⟩ := ran
    have inEntry : ¬ Scratch (entryDir key ++ [safeName name]) :=
      not_scratch_entry (List.prefix_append _ _)
    have placed : w5.disk.lookup (entryDir key ++ [safeName name]) = some (.file content) :=
      (scratch _ inEntry).trans placed
    obtain ⟨_, choice, _, handled⟩ := (sixth.2 _ rfl).resolve_left fun temporary =>
      tmp_not_entry temporary (List.prefix_append _ _)
    obtain rfl : (w5.attempt (w5.disk.removeFile (entryDir key ++ [safeName name]))).2 = w6 :=
      congrArg Prod.snd handled
    have removed : w5.disk.removeFile (entryDir key ++ [safeName name]) =
        .ok (w5.disk.erase (entryDir key ++ [safeName name])) := by
      rw [FileTree.removeFile, placed]
    intro p apart
    rw [last, removed]
    show (w5.disk.erase _).lookup p = _ ∨ _ ∧ _ ∧ (w5.disk.erase _).lookup p = _
    rw [lookup_erase_eq]
    split
    · rename_i same
      subst same
      obtain kept | ⟨inside, -⟩ := residue _ apart
      · exact .inl (kept.symm.trans absent).symm
      · have := inside.length_le
        simp at this
    · rename_i ne
      rw [scratch p apart, others p apart ne]
      exact residue p apart
  · obtain ⟨_, _, _, ran⟩ := Prog.exec_bind.1 ran
    cases ran.1

variable {tenant : TenantId} {kind : Kind} {id : String}

/-- **What a put that fails leaves**: the index as it was, and a residue. -/
theorem putWithId_residue {error : StoreError}
    (ran : Cleaned allowed t (putWithId limits codec tenant kind id name bytes info) w
      (.error error) w') :
    w'.index = w.index ∧ w'.owner = w.owner ∧ Residue ⟨tenant, kind, id⟩ w.disk w'.disk := by
  unfold putWithId at ran
  split at ran
  · obtain ⟨-, rfl⟩ := ran
    exact ⟨rfl, rfl, (scratchOnly_refl _).residue _⟩
  · rename_i id' valid
    obtain rfl := validateId_ok valid
    obtain ⟨_, w1, locked, ran⟩ := ran
    obtain ⟨waited, _, _, handled⟩ := faulty_answers
      (fun _ _ faults => by cases faults with | still fails => exact fails) locked.1
    obtain ⟨rfl, rfl⟩ := Prod.mk.inj handled
    simp only [Prog.ret_bind] at ran
    obtain ⟨⟨result, index', note⟩, w2, put, ran⟩ := Prog.exec_bind.1 ran
    obtain ⟨_, w3, released, same, rfl⟩ := ran
    obtain ⟨_, _, _, handled⟩ := faulty_answers
      (fun _ _ faults => by cases faults with | still fails => exact fails) released.1
    obtain ⟨-, rfl⟩ := Prod.mk.inj handled
    obtain rfl : result = .error error := same.symm
    obtain ⟨_, out, -⟩ | ⟨-, _, _, _, -, -, -, out⟩ := putLocked_faulty (faulty_of_cleaned put)
    · obtain ⟨-, rfl, -⟩ := by simpa using out
      exact ⟨rfl, (waited _ rfl).symm, fun p apart => putLocked_residue put p apart⟩
    · cases (Prod.mk.inj out).1

/-! ## What a residue hides -/

section Hidden

variable {disk disk' : FileTree} {other : Key}

theorem Residue.file (residue : Residue key disk disk') (other : Key) (name : String) :
    disk'.lookup (entryDir other ++ [name]) = disk.lookup (entryDir other ++ [name]) := by
  obtain same | ⟨above, -⟩ := residue _ (not_scratch_entry (List.prefix_append (entryDir other) [name]))
  · exact same
  · have := above.length_le
    simp at this

/-- An entry is as it was, or its directory is new. -/
theorem Residue.entry (residue : Residue key disk disk') (other : Key) :
    (∀ p, entryDir other <+: p → disk'.lookup p = disk.lookup p) ∨
      disk.lookup (entryDir other) = none := by
  by_cases absent : disk.lookup (entryDir other) = none
  · exact .inr absent
  · refine .inl fun p under => ?_
    obtain same | ⟨above, fresh, -⟩ := residue p (not_scratch_entry under)
    · exact same
    · have whole : p = entryDir other := by
        have long := above.length_le
        rw [entryDir_length] at long
        exact (under.eq_of_length_le (by simpa using long)).symm
      exact absurd (whole ▸ fresh) absent

/-- An opening takes in neither an entry that was not there nor its bare directory. -/
theorem Residue.adopts (residue : Residue key disk disk') (closed : Closed disk) (other : Key)
    (entry : Entry) : Adopts codec disk' other entry ↔ Adopts codec disk other entry := by
  obtain same | absent := residue.entry other
  · exact ⟨fun adopts => adopts.congr fun p under => (same p under).symm,
      fun adopts => adopts.congr same⟩
  · constructor
    · intro adopts
      obtain ⟨raw, _, found, -⟩ := adopts.recorded
      rw [residue.file] at found
      have dir := closed (entryDir other) metaName (by rw [found]; rfl)
      rw [isDir_iff, absent] at dir
      cases dir
    · intro adopts
      have dir := isDir_iff.1 adopts.dir
      rw [absent] at dir
      cases dir

theorem Residue.own (residue : Residue key disk disk') {p : Path} (own : p = [] ∨ p = tmpDir)
    (bytes : Bytes) : disk'.lookup p = some (.file bytes) ↔ disk.lookup p = some (.file bytes) := by
  have apart : ¬ Scratch p := by
    rintro ⟨under, ne⟩
    obtain rfl | rfl := own
    · simp [tmpDir] at under
    · exact ne rfl
  obtain same | ⟨-, absent, dir⟩ := residue p apart
  · rw [same]
  · simp [absent, dir]

end Hidden

/-- The same answers to every read. -/
structure SameReads (w u : World T) : Prop where
  index : u.index = w.index
  owner : u.owner = w.owner
  files : ∀ key name, u.disk.lookup (entryDir key ++ [name]) = w.disk.lookup (entryDir key ++ [name])

theorem SameReads.step {c : Call} {reply : Reply c} {u : World T}
    (fetching : c.Fetching (entryDir key ++ [name]))
    (same : SameReads w u) (answered : answers allowed t c w reply w') :
    ∃ u', answers allowed t c u reply u' ∧ SameReads w' u' := by
  obtain ⟨waits, choice, may, handled⟩ := answered
  obtain ⟨rfl, rfl⟩ := Prod.mk.inj handled
  have replies : (handle t choice c u).1 = (handle t choice c w).1 := by
    cases c with
    | lock _ => exact same.index
    | unlock _ _ | now => rfl
    | read p =>
        obtain rfl : p = entryDir key ++ [name] := fetching
        show u.disk.read _ = w.disk.read _
        rw [FileTree.read, FileTree.read, same.files]
    | _ => exact fetching.elim
  refine ⟨(handle t choice c u).2, ⟨fun purpose locks => ?_, choice, may, ?_⟩, ?_⟩
  · rw [same.owner]
    exact waits purpose locks
  · exact Prod.ext replies rfl
  · cases c with
    | lock _ => exact ⟨same.index, rfl, same.files⟩
    | unlock _ _ => exact ⟨rfl, rfl, same.files⟩
    | now => exact same
    | read _ => exact same
    | _ => exact fetching.elim

/-- **What is read from one is read from the other.** -/
theorem SameReads.get {u : World T} (same : SameReads w u) {result : Except StoreError Bytes}
    {w' : World T} (ran : Alone allowed t (Store.get tenant kind id name) w result w') :
    ∃ u', Alone allowed t (Store.get tenant kind id name) u result u' := by
  have each : ∀ c (s u : World T) reply s',
      c.Fetching (entryDir ⟨tenant, kind, id⟩ ++ [safeName name]) → SameReads s u →
      answers allowed t c s reply s' → ∃ u', answers allowed t c u reply u' ∧ SameReads s' u' :=
    fun c s u reply s' fetching same answered => same.step fetching answered
  obtain ⟨u', ran', -⟩ := ran.simulate SameReads each (fetching_get tenant kind id name) same
  exact ⟨u', ran'⟩

theorem SameReads.symm {u : World T} (same : SameReads w u) : SameReads u w :=
  ⟨same.index.symm, same.owner.symm, fun key name => (same.files key name).symm⟩

/-! ## Every state a store can be in -/

theorem closed_faulty {c : Call} {reply : Reply c} (closed : Closed w.disk)
    (answered : faulty allowed t c w reply w') : Closed w'.disk := by
  rcases answered with ⟨_, choice, _, handled⟩ | ⟨disk, faults, rfl⟩
  · obtain rfl : (handle t choice c w).2 = w' := congrArg Prod.snd handled
    exact closed_call c choice closed
  · cases faults with
    | still _ | kept => exact closed
    | parents _ made => exact closed.createDirAll made
    | torn _ => exact closed.writeAll _ _

theorem closed_exec {p : StoreProg α} (closed : Closed w.disk)
    (ran : Faulty allowed t p w value w') : Closed w'.disk :=
  ran.keeps (fun s => Closed s.disk) (fun _ _ _ _ _ closed answered => closed_faulty closed answered)
    (Prog.calls_all (fun _ => trivial) p) closed

variable {mayCrash : World T → Prop} {admits : T → StoreProg Outcome → World T → Prop} {boot : T}

/-- The store runs over a file system that fails. -/
abbrev Failing : CallStep Call Reply T (World T) := faulty anyChoice

theorem closed_run {c : StoreConf T} (closed : Closed w.disk)
    (run : Reaches Failing admits (idleConf w) c) : Closed c.state.disk := by
  induction run with
  | refl => exact closed
  | tail _ last ih =>
      cases last with
      | start _ _ _ _ => exact ih
      | call _ _ _ _ _ answered => exact closed_faulty ih answered

theorem closed_fallen {v : World T} (closed : Closed w.disk)
    (fallen : Fallen limits codec boot mayCrash w v) : Closed v.disk := by
  induction fallen with
  | crashed _ => exact closed
  | again _ begun _ ih =>
      exact begun.keeps (fun s => Closed s.disk)
        (fun _ _ _ _ _ closed answered => closed_faulty closed (.inl answered))
        (Prog.calls_all (fun _ => trivial) _) ih

theorem closed_life (life : Life limits codec boot mayCrash Failing admits w) : Closed w.disk := by
  induction life with
  | fresh => exact laid_fresh.closed
  | reopened _ run fallen opened ih =>
      exact closed_exec (closed_fallen (closed_run ih run) fallen) (faulty_of_alone opened)

/-- **A put that fails has not happened.**  In whatever state of a store on a file system that
fails: the index is as it was, every read answers as it did, and a reopening rebuilds the index
that it would have rebuilt. -/
theorem put_atomic {w0 : World T} {c : StoreConf T} {error : StoreError}
    (life : Life limits codec boot mayCrash Failing admits w0)
    (run : Reaches Failing admits (idleConf w0) c)
    (ran : Cleaned anyChoice t (putWithId limits codec tenant kind id name bytes info) c.state
      (.error error) w') :
    w'.index = c.state.index ∧
    (∀ reader tenant kind id name result,
      (∃ v, Alone anyChoice reader (Store.get tenant kind id name) w' result v) ↔
      (∃ v, Alone anyChoice reader (Store.get tenant kind id name) c.state result v)) ∧
    (∀ v', Opens limits codec boot w'.crash v' →
      ∃ v, Opens limits codec boot c.state.crash v ∧ v'.index.Same v.index) ∧
    (∀ v, Opens limits codec boot c.state.crash v →
      ∃ v', Opens limits codec boot w'.crash v' ∧ v.index.Same v'.index) := by
  have closed : Closed c.state.disk := closed_run (closed_life life) run
  have closed' : Closed w'.disk := closed_exec closed (faulty_of_cleaned ran)
  have before : Closed c.state.crash.disk := closed
  have after : Closed w'.crash.disk := closed'
  obtain ⟨index, owner, residue⟩ := putWithId_residue ran
  have reads : SameReads c.state w' := ⟨index, owner, residue.file⟩
  refine ⟨index, fun _ _ _ _ _ _ => ⟨?_, ?_⟩, fun v' opened => ?_, fun v opened => ?_⟩
  · rintro ⟨_, read⟩
    exact reads.symm.get read
  · rintro ⟨_, read⟩
    exact reads.get read
  · exact opens_same after before rfl (fun key entry => (residue.adopts closed key entry).symm)
      (fun p bytes own => (residue.own own bytes).2) opened
  · exact opens_same before after rfl (residue.adopts closed)
      (fun p bytes own => (residue.own own bytes).1) opened

/-! ## A put whose metadata cannot be put in place -/

/-- The world's answers, but for the renames onto `target`. -/
def stuckAt (target : Path) : (c : Call) → Solo → Reply c × Solo
  | .rename p q, w =>
      if q = target then (.error .other, w) else handle () (reading 0) (.rename p q) w
  | c, w => handle () (reading 0) c w

theorem cleaned_stuckAt {target : Path} {c : Call} {w : Solo} (free : unlocked w c = true) :
    cleaned anyChoice () c w (stuckAt target c w).1 (stuckAt target c w).2 := by
  have answered : answers anyChoice () c w (handle () (reading 0) c w).1
      (handle () (reading 0) c w).2 := answers_of_unlocked trivial free
  cases c with
  | rename p q =>
      refine ⟨?_, nofun⟩
      simp only [stuckAt]
      split
      · exact .inr ⟨w.disk, .still trivial, rfl⟩
      · exact .inl answered
  | _ => exact ⟨.inl answered, fun _ _ => .inr answered⟩

theorem put_atomic_stuck :
    ∃ w' : Solo, w'.disk.isDir (entryDir someKey) = true ∧
    w'.index = (World.fresh : Solo).index ∧
    (∀ reader tenant kind id name result,
      (∃ v, Alone anyChoice reader (Store.get tenant kind id name) w' result v) ↔
      (∃ v, Alone anyChoice reader (Store.get tenant kind id name) (World.fresh : Solo) result v)) ∧
    (∀ v', Opens smallLimits serde () w'.crash v' →
      ∃ v, Opens smallLimits serde () (World.fresh : Solo).crash v ∧ v'.index.Same v.index) ∧
    (∀ v, Opens smallLimits serde () (World.fresh : Solo).crash v →
      ∃ v', Opens smallLimits serde () w'.crash v' ∧ v.index.Same v'.index) := by
  obtain ⟨⟨result, w'⟩, played, checked⟩ : ∃ x, (putWithId smallLimits serde someKey.tenant
      someKey.kind someKey.id "a.pdf" [1] {}).play (stuckAt (entryDir someKey ++ [metaName]))
        (fun c w => unlocked w c) World.fresh = some x ∧
      (!x.1.isOk && x.2.disk.isDir (entryDir someKey)) = true :=
    (Option.any_eq_true _ _).1 (by decide +kernel)
  obtain ⟨failed, made⟩ := Bool.and_eq_true_iff.1 checked
  have ran := Prog.exec_of_play (fun c w free => @cleaned_stuckAt _ c w free) played
  have life : Life smallLimits serde () (fun _ => True) Failing (fun _ _ _ => True) World.fresh :=
    .fresh
  cases result with
  | ok entry => cases failed
  | error error =>
      exact ⟨w', made, put_atomic life .refl ran⟩

end TypstMcp.Store
