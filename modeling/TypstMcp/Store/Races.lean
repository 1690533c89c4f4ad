/-
Store.Races -- disk and index under concurrency

* `disk_index_agree`: in every interleaving in which no put on an entry overlaps a
  removal of it, whenever all calls have returned every entry of the index has its
  metadata and its acknowledged files on disk, and no other entry directory exists.
* `renewed_then_removed`: without that condition the agreement fails.  A reap picks an
  expired entry and empties its directory; a put renews the entry and returns `Ok`;
  the reap then drops it from the index, and its directory stays behind.
-/
import TypstMcp.Store.Concurrent
import TypstMcp.Store.Serde
import Mathlib.Data.Fintype.Basic

namespace TypstMcp.Store

open TypstMcp.Theory TypstMcp.Theory.Table TypstMcp.Theory.FileTree
open TypstMcp.Auth (TenantId)

set_option autoImplicit false
set_option linter.unusedSectionVars false

variable {T : Type} [DecidableEq T]

/-- A configuration of the store: its world, and the calls running on it. -/
abbrev StoreConf (T : Type) := Conf Call Reply Outcome T (World T)

/-- Any thread may make any call. -/
def starts (limits : Limits) (codec : MetaCodec) : T → StoreProg Outcome → World T → Prop :=
  fun _ p _ => ∃ op : Op, p = op.program limits codec

/-- The store on an empty volume, with no call running. -/
def freshConf : StoreConf T := ⟨World.fresh, fun _ => none⟩

/-- Disk and index agree on an entry, as a client sees it. -/
structure Agrees (codec : MetaCodec) (w : World T) (key : Key) : Prop where
  info : ∀ entry, w.index.entries.lookup key = some entry → ∃ raw,
    w.disk.lookup (entryDir key ++ [metaName]) = some (.file raw) ∧ Records codec raw entry
  files : ∀ entry, w.index.entries.lookup key = some entry →
    ∀ name bytes, (name, bytes) ∈ w.acked key →
      ∃ found, w.disk.lookup (entryDir key ++ [name]) = some (.file found) ∧
        (name ≠ metaName → found = bytes)
  unlisted : w.index.entries.lookup key = none → w.disk.lookup (entryDir key) = none

theorem Good.agrees {codec : MetaCodec} {w : World T} {key : Key}
    (good : Good codec w.index w.acked w.disk key) : Agrees codec w key where
  info entry found := (good.listed entry found).info
  files entry found name bytes inside := by
    have complete := good.listed entry found
    by_cases named : name = metaName
    · subst named
      obtain ⟨raw, there, -⟩ := complete.info
      exact ⟨raw, there, fun safe => absurd rfl safe⟩
    · exact ⟨bytes, complete.files name bytes inside named, fun _ => rfl⟩
  unlisted absent := good.unlisted absent _ List.prefix_rfl

/-! ## Where runs begin -/

theorem lookup_fresh (p : Path) : (World.fresh : World T).disk.lookup p =
    if p = tmpDir ∨ p = [] then some .dir else none := by
  show (((∅ : FileTree).insert [] .dir).insert tmpDir .dir).lookup p = _
  rw [FileTree.lookup_insert_eq, FileTree.lookup_insert_eq]
  by_cases tmp : p = tmpDir <;> by_cases root : p = [] <;> simp [tmp, root]

theorem fresh_below (key : Key) {p : Path} (under : entryDir key <+: p) :
    (World.fresh : World T).disk.lookup p = none := by
  rw [lookup_fresh, if_neg]
  rintro (rfl | rfl)
  · exact tmp_not_entry List.prefix_rfl under
  · exact absurd under.length_le (by simp)

theorem inv_fresh (codec : MetaCodec) (plain : Prop) :
    Inv codec plain (World.fresh : World T) where
  closed p n present := by
    rw [lookup_fresh] at present
    split at present
    · rename_i placed
      rcases placed with tmp | root
      · obtain rfl : p = [] := by
          have := congrArg List.length tmp
          simpa [tmpDir] using this
        rw [isDir_iff, lookup_fresh, if_pos (Or.inr rfl)]
      · exact absurd root (by simp)
    · exact absurd present (by simp)
  shape p node found := by
    rw [lookup_fresh] at found
    split at found
    · rename_i placed
      obtain rfl : Node.dir = node := by simpa using found
      rcases placed with rfl | rfl
      · exact ⟨rfl, Or.inl rfl⟩
      · rfl
    · exact absurd found (by simp)
  info _ key bytes found := by
    rw [fresh_below key (List.prefix_append _ _)] at found
    exact absurd found (by simp)
  serves key := Or.inr fun present => by
    rw [fresh_below key (List.prefix_append _ _)] at present
    exact absurd present (by simp)
  tornInfo key torn := absurd torn (by simp [World.fresh])
  tmpFiles _ name present := by
    rw [lookup_fresh, if_neg (by simp [tmpDir])] at present
    exact absurd present (by simp)
  tmpDir _ := by rw [isDir_iff, lookup_fresh, if_pos (Or.inl rfl)]
  acked _ _ _ := rfl
  good _ _ key _ := ⟨fun entry found => absurd found (by simp [World.fresh]),
    fun _ p under => fresh_below key under⟩

/-! ## Every calm run -/

section Runs

variable {limits : Limits} {codec : MetaCodec}

/-- No put is at work on an entry a removal has picked. -/
def Separate (w : World T) : Prop :=
  ∀ t key, entryDir key ∈ w.doomed t → ∀ s size, w.owner ≠ some (s, .storing key size)

theorem separate_step {allowed : Choice → Prop} {t : T} {c : Call} {w w' : World T}
    {reply : Reply c} (held : Separate w) (answered : calmAnswers allowed t c w reply w') :
    Separate w' := by
  obtain ⟨calm, waits, choice, _, handled⟩ := answered
  have after := congrArg Prod.snd handled
  have kept : ∀ {w' : World T}, w'.doomed = w.doomed → w'.owner = w.owner → Separate w' := by
    intro w' doomed owner
    unfold Separate
    rw [doomed, owner]
    exact held
  subst after
  cases c with
  | lock purpose =>
      intro s key picked u size owned
      obtain ⟨-, rfl⟩ := Prod.mk.inj (Option.some.inj owned)
      exact calm s picked
  | unlock index note => exact fun _ _ _ _ _ owned => absurd owned (by simp [handle, World.publish])
  | walk p =>
      show Separate (w.startRemoval t p)
      unfold World.startRemoval
      split
      · rename_i free
        intro s key picked u size owned
        by_cases mine : s = t
        · subst mine
          have here : entryDir key = p ∨ entryDir key ∈ w.doomed s := by simpa using picked
          rcases here with same | before
          · have apart : Apart s p w.owner := calm
            rw [show w.owner = some (u, .storing key size) from owned] at apart
            rcases apart with own | other
            · exact free.2 (by rw [show w.owner = some (u, .storing key size) from owned, own]; rfl)
            · exact other same.symm
          · exact held s key before u size owned
        · have before : entryDir key ∈ w.doomed s := by simpa [mine] using picked
          exact held s key before u size owned
      · exact held
  | createDirAll p | createFile p | rename p q | removeFile p =>
      have same : ∀ outcome, (w.attempt outcome).2.doomed = w.doomed ∧
          (w.attempt outcome).2.owner = w.owner := by
        intro outcome; cases outcome <;> exact ⟨rfl, rfl⟩
      exact kept (same _).1 (same _).2
  | _ => exact kept rfl rfl

theorem separate_reaches {c c' : StoreConf T} (held : Separate c.state)
    (run : Reaches (calmAnswers fun _ => True) (starts limits codec) c c') :
    Separate c'.state := by
  induction run with
  | refl => exact held
  | tail _ last ih =>
      cases last with
      | start t p free admitted => exact ih
      | call t call next reply running answered => exact separate_step ih answered

/-- A thread that has made no call has nothing to remove and does not hold the lock. -/
def Fresh (t : T) (w : World T) : Prop :=
  w.up = true ∧ w.doomed t = [] ∧ ∀ purpose, w.owner ≠ some (t, purpose)

theorem stable_fresh {plain : Prop} {boot : T} (t : T) :
    Stable (Guar codec plain boot) t (Fresh t) := by
  rintro w w' ⟨up, doomed, free⟩ ⟨s, other, within⟩
  have frame := within.frame up
  exact ⟨frame.up, (frame.doomed t (Ne.symm other)).trans doomed,
    fun purpose owned => free purpose (frame.owner t (Ne.symm other) purpose owned)⟩

theorem pool_safe {plain : Prop} {boot : T} {c c' : StoreConf T}
    {admits : T → StoreProg Outcome → World T → Prop}
    (admitted : ∀ t p w, admits t p w → ∃ op : Op, p = op.program limits codec ∧
      (plain → op.Plain))
    (safe : PoolSafe (calmAnswers fun _ => True) (Guar codec plain boot) (Inv codec plain) Fresh
      (fun t _ => Resting codec plain t [] anything) c)
    (run : Reaches (calmAnswers fun _ => True) admits c c') :
    PoolSafe (calmAnswers fun _ => True) (Guar codec plain boot) (Inv codec plain) Fresh
      (fun t _ => Resting codec plain t [] anything) c' := by
  refine reaches_safe (fun t s s' inv within => within.inv inv) stable_fresh
    (fun t p w inv idle may => ?_) safe run
  obtain ⟨op, rfl, named⟩ := admitted t p w may
  exact program_safe op named ⟨inv, idle.1, idle.2.1, idle.2.2, trivial⟩

/-- At a quiet configuration nobody holds the lock and nothing is being removed. -/
theorem quiet_good {plain : Prop} {boot : T} {c : StoreConf T} [Inhabited T]
    (safe : PoolSafe (calmAnswers fun _ => True) (Guar codec plain boot) (Inv codec plain) Fresh
      (fun t _ => Resting codec plain t [] anything) c)
    (quiet : c.Quiet) (key : Key) : Good codec c.state.index c.state.acked c.state.disk key := by
  have fresh : ∀ t, Fresh t c.state := by
    intro t
    cases found : c.pool t with
    | none => exact safe.free t found
    | some p =>
        obtain ⟨value, rfl⟩ := quiet t p found
        have held := safe.threads t _ found _ .refl
        exact ⟨held.up, held.doomed, held.free⟩
  refine safe.state.good (fresh default).1 ?_ key fun t => ?_
  · rintro ⟨s, key', size, owned⟩
    exact (fresh s).2.2 _ owned
  · rw [(fresh t).2.1]
    exact List.not_mem_nil

theorem poolSafe_fresh {plain : Prop} {boot : T} :
    PoolSafe (calmAnswers fun _ => True) (Guar codec plain boot) (Inv codec plain) Fresh
      (fun t _ => Resting codec plain t [] anything) (freshConf : StoreConf T) where
  state := inv_fresh codec plain
  free _ _ := ⟨rfl, rfl, fun _ owned => absurd owned (by simp [freshConf, World.fresh])⟩
  threads _ _ found := absurd found (by simp [freshConf])

/-- **Disk and index agree under concurrency**, in every interleaving in which no put
on an entry overlaps a removal of it: no put works on an entry a removal has picked,
and once all calls have returned the index and the disk hold the same entries. -/
theorem disk_index_agree [Inhabited T] {c : StoreConf T}
    (run : Reaches (calmAnswers fun _ => True) (starts limits codec) freshConf c) :
    (∀ t key, entryDir key ∈ c.state.doomed t →
      ∀ s size, c.state.owner ≠ some (s, .storing key size)) ∧
    (c.Quiet → ∀ key, Agrees codec c.state key) := by
  refine ⟨separate_reaches (fun _ _ picked => absurd picked (by simp [freshConf, World.fresh])) run,
    fun quiet key => ?_⟩
  have safe : PoolSafe (calmAnswers fun _ => True) (Guar codec False default) (Inv codec False)
      Fresh (fun t _ => Resting codec False t [] anything) c :=
    pool_safe (fun t p w may => by obtain ⟨op, same⟩ := may; exact ⟨op, same, fun no => no.elim⟩)
      poolSafe_fresh run
  exact (quiet_good safe quiet key).agrees

end Runs

/-! ## Schedules on three threads -/

section Schedules

/-- There is a first of three threads. -/
instance threeThreads : NeZero 3 := ⟨by decide⟩

/-- Small limits: entries live ten seconds. -/
def smallLimits : Limits where
  outputTtl := 10
  assetTtl := 10
  templateTtl := 10
  maxTenantBytes := 1000
  maxStoreBytes := 1000
  maxTenantEntries := 10
  maxStoreEntries := 10

def someTenant : TenantId := ⟨"0123456789abcdef", by decide⟩

def someKey : Key := ⟨someTenant, .output, "job_01ARZ3NDEKTSV4RRFFQ69G5FAV"⟩

def putOp (name : String) (bytes : Bytes) : Op :=
  .putWithId someKey.tenant someKey.kind someKey.id name bytes {}

/-- The environment at one clock reading. -/
def reading (now : Nat) : Choice := ⟨now, "01ARZ3NDEKTSV4RRFFQ69G5FAV", fun _ => 0, fun _ => 0⟩

abbrev StoreMove := Move Call Reply Outcome (Fin 3) Choice

def launch (t : Fin 3) (op : Op) : List StoreMove := [.start t (op.program smallLimits serde)]

/-- The next `count` calls of one thread, at one clock reading. -/
def calls (t : Fin 3) (count now : Nat) : List StoreMove :=
  List.replicate count (.call t (reading now))

/-- Only operations of the store are started. -/
def Launches (moves : List StoreMove) : Prop :=
  ∀ t p, Move.start t p ∈ moves → ∃ op : Op, p = op.program smallLimits serde

theorem launches_launch (t : Fin 3) (op : Op) : Launches (launch t op) := by
  intro u p inside
  obtain ⟨-, rfl⟩ : u = t ∧ p = _ := by simpa [launch] using inside
  exact ⟨op, rfl⟩

theorem launches_calls (t : Fin 3) (count now : Nat) : Launches (calls t count now) := by
  intro u p inside
  exact absurd (List.eq_of_mem_replicate inside) (by simp)

theorem Launches.append {a b : List StoreMove} (first : Launches a) (second : Launches b) :
    Launches (a ++ b) := by
  intro t p inside
  rcases List.mem_append.1 inside with early | late
  · exact first t p early
  · exact second t p late

/-- Taking the lock has to wait until it is free. -/
def unlocked (w : World T) : Call → Bool
  | .lock _ => w.owner.isNone
  | _ => true

theorem answers_of_unlocked {allowed : Choice → Prop} {t : T} {choice : Choice} {c : Call}
    {w : World T} (may : allowed choice) (free : unlocked w c = true) :
    answers allowed t c w (handle t choice c w).1 (handle t choice c w).2 := by
  refine ⟨?_, choice, may, rfl⟩
  rintro purpose rfl
  simpa [unlocked] using free

/-- A schedule, with the moves `enabled` forbids left out of what may happen. -/
def played (enabled : Fin 3 → Call → World (Fin 3) → Bool) (moves : List StoreMove) :
    Option (StoreConf (Fin 3)) :=
  freshConf.play (fun t choice => handle t choice) enabled moves

def anyOrder (_ : Fin 3) (c : Call) (w : World (Fin 3)) : Bool := unlocked w c

def calmOrder (t : Fin 3) (c : Call) (w : World (Fin 3)) : Bool :=
  unlocked w c && decide (Calm t w c)

theorem calmAnswers_of_free {allowed : Choice → Prop} {t : Fin 3} {choice : Choice} {c : Call}
    {w : World (Fin 3)} (may : allowed choice) (free : calmOrder t c w = true) :
    calmAnswers allowed t c w (handle t choice c w).1 (handle t choice c w).2 := by
  obtain ⟨free, calm⟩ : unlocked w c = true ∧ Calm t w c := by
    simpa [calmOrder] using free
  exact ⟨calm, answers_of_unlocked may free⟩

theorem reaches_played {moves : List StoreMove} {c : StoreConf (Fin 3)}
    (launches : Launches moves) (ended : played anyOrder moves = some c) :
    Reaches (answers fun _ => True) (starts smallLimits serde) freshConf c :=
  Conf.play_reaches (fun _ t p inside => launches t p inside)
    (fun _ _ _ _ free => answers_of_unlocked trivial free) ended

theorem calm_played {moves : List StoreMove} {c : StoreConf (Fin 3)}
    (launches : Launches moves) (ended : played calmOrder moves = some c) :
    Reaches (calmAnswers fun _ => True) (starts smallLimits serde) freshConf c :=
  Conf.play_reaches (fun _ t p inside => launches t p inside)
    (fun _ _ _ _ free => calmAnswers_of_free trivial free) ended

def allReturned {S : Type} (c : Conf Call Reply Outcome (Fin 3) S) : Bool :=
  decide (∀ t, (c.pool t).all Prog.returned = true)

theorem quiet_of_allReturned {S : Type} {c : Conf Call Reply Outcome (Fin 3) S} (returned : allReturned c = true) :
    c.Quiet := by
  intro t p found
  have all := of_decide_eq_true returned t
  rw [found] at all
  exact Prog.returned_iff.1 all

/-- Thread 1 reaps at 20 what thread 0 stored at 0.  It has emptied the directory when
thread 2 puts a second file there. -/
def race : List StoreMove :=
  launch 0 (putOp "a.pdf" [1]) ++ calls 0 13 0 ++ (launch 1 .reap ++ calls 1 8 20) ++
    (launch 2 (putOp "b.pdf" [2]) ++ calls 2 13 20) ++ calls 1 3 20

/-- The put answered `Ok` with an expiry after the reap's clock. -/
def renewed (c : StoreConf (Fin 3)) : Bool :=
  match c.pool 2 with
  | some (.ret (.entry (.ok entry))) => entry.expiresAt = 30
  | _ => false

/-- **Without that condition the agreement fails**: a put renews an entry and returns
`Ok` after a reap has picked it; the reap drops it from the index all the same, and its
directory stays on disk with no index entry. -/
theorem renewed_then_removed :
    ∃ c : StoreConf (Fin 3),
      Reaches (answers fun _ => True) (starts smallLimits serde) freshConf c ∧ c.Quiet ∧
      (∃ entry, c.pool 2 = some (.ret (.entry (.ok entry))) ∧ entry.expiresAt = 30) ∧
      c.state.index.entries.lookup someKey = none ∧
      (c.state.disk.lookup (entryDir someKey)).isSome ∧ ¬ Agrees serde c.state someKey := by
  obtain ⟨c, ended, checked⟩ : ∃ c, played anyOrder race = some c ∧
      (allReturned c && renewed c && (c.state.index.entries.lookup someKey).isNone &&
        (c.state.disk.lookup (entryDir someKey)).isSome) = true :=
    (Option.any_eq_true _ _).1 (by decide +kernel)
  simp only [Bool.and_eq_true] at checked
  obtain ⟨⟨⟨returned, ok⟩, absent⟩, there⟩ := checked
  have launches : Launches race :=
    ((((launches_launch _ _).append (launches_calls _ _ _)).append
      ((launches_launch _ _).append (launches_calls _ _ _))).append
      ((launches_launch _ _).append (launches_calls _ _ _))).append (launches_calls _ _ _)
  have gone : c.state.index.entries.lookup someKey = none := by simpa using absent
  refine ⟨c, reaches_played launches ended, quiet_of_allReturned returned, ?_, gone, there,
    fun agrees => ?_⟩
  · unfold renewed at ok
    split at ok
    · rename_i entry found
      exact ⟨entry, found, by simpa using ok⟩
    · exact absurd ok (by simp)
  · rw [agrees.unlisted gone] at there
    exact absurd there (by simp)

/-- The same calls one after the other: the second put finds the entry removed and
makes it anew. -/
def calmRun : List StoreMove :=
  launch 0 (putOp "a.pdf" [1]) ++ calls 0 13 0 ++ (launch 1 .reap ++ calls 1 11 20) ++
    (launch 2 (putOp "b.pdf" [2]) ++ calls 2 13 20)

theorem disk_index_agree_calmRun :
    ∃ c : StoreConf (Fin 3), c.Quiet ∧ (c.state.index.entries.lookup someKey).isSome ∧
      ((∀ t key, entryDir key ∈ c.state.doomed t →
        ∀ s size, c.state.owner ≠ some (s, .storing key size)) ∧
      (c.Quiet → ∀ key, Agrees serde c.state key)) := by
  obtain ⟨c, ended, checked⟩ : ∃ c, played calmOrder calmRun = some c ∧
      (allReturned c && (c.state.index.entries.lookup someKey).isSome) = true :=
    (Option.any_eq_true _ _).1 (by decide +kernel)
  simp only [Bool.and_eq_true] at checked
  have launches : Launches calmRun :=
    (((launches_launch _ _).append (launches_calls _ _ _)).append
      ((launches_launch _ _).append (launches_calls _ _ _))).append
      ((launches_launch _ _).append (launches_calls _ _ _))
  exact ⟨c, quiet_of_allReturned checked.1, checked.2, disk_index_agree (calm_played launches ended)⟩

end Schedules

end TypstMcp.Store
