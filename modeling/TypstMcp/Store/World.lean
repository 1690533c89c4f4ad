/-
Store.World -- the disk, the index and the lock behind every call

`handle` answers one call: the lock hands out and takes back the index, the clock
and the name generator answer with the environment's choice, and a file-system
call does to the tree what `Theory.FileTree` says.  A crash keeps the tree and
loses everything else (`World.crash`).

Four fields are history only, and no answer reads them: the files the entries of
the index have acknowledged (`acked`), the entry directories a removal has picked
and not finished with (`doomed`), those a removal has begun to empty while their
`meta.json` is still there (`torn`), and the temporary files crashes have left
behind (`stray`).
-/
import TypstMcp.Store.Program

namespace TypstMcp.Store

open TypstMcp.Theory TypstMcp.Theory.Table
open TypstMcp.Auth (TenantId)

set_option autoImplicit false

variable {T : Type} [DecidableEq T]

structure World (T : Type) where
  disk : FileTree := ∅
  index : Index := {}
  owner : Option (T × Purpose) := none
  /-- `Store::open` has returned. -/
  up : Bool := false
  expiredEvictions : Nat := 0
  quotaEvictions : Nat := 0
  acked : Key → List (String × Bytes) := fun _ => []
  doomed : T → List Path := fun _ => []
  torn : List Path := []
  stray : List Path := []

/-- What the environment decides about one call. -/
structure Choice where
  now : Nat
  ulid : String
  keyRank : Key → Nat
  pathRank : Path → Nat

namespace World

/-- The acknowledged files of the entries `index` holds. -/
def ackedAfter (w : World T) (index : Index) (note : Note) (key : Key) : List (String × Bytes) :=
  if (index.entries.lookup key).isSome then
    match note with
    | .counted stored name bytes =>
        if key = stored then (name, bytes) :: w.acked key else w.acked key
    | _ => w.acked key
  else []

def doomedAfter (w : World T) (t : T) : Note → T → List Path
  | .doomed keys => Function.update w.doomed t (keys.map entryDir)
  | _ => w.doomed

/-- The guard is dropped: the index is published and the lock is free. -/
def publish (w : World T) (t : T) (index : Index) (note : Note) : World T :=
  { w with
    index := index
    owner := none
    acked := w.ackedAfter index note
    doomed := w.doomedAfter t note }

/-- A removal begins to walk `p`.  An eviction holds the lock all the while and the
rebuild has the disk to itself, so neither leaves anything doomed. -/
def startRemoval (w : World T) (t : T) (p : Path) : World T :=
  if w.up = true ∧ w.owner.map (·.1) ≠ some t then
    { w with doomed := Function.update w.doomed t (p :: w.doomed t) }
  else w

/-- The torn directories once `p` is unlinked: a payload file goes while the
metadata beside it stays, or the metadata goes. -/
def tornAfter (w : World T) (p : Path) : List Path :=
  if p.getLast? = some metaName then w.torn.filter (· ≠ p.dropLast)
  else
    match w.disk.lookup p with
    | some (.file _) =>
        if w.disk.pathExists (p.dropLast ++ [metaName]) then p.dropLast :: w.torn else w.torn
    | _ => w.torn

def unlinked (w : World T) (p : Path) : World T :=
  { w with disk := w.disk.unlink p, torn := w.tornAfter p }

/-- A call that either changes the tree or fails and leaves it. -/
def attempt (w : World T) : Except ErrorKind FileTree → Except ErrorKind Unit × World T
  | .ok disk => (.ok (), { w with disk := disk })
  | .error kind => (.error kind, w)

def metadata (w : World T) (p : Path) : Except ErrorKind (Option Nat) :=
  match w.disk.lookup p with
  | some (.file bytes) => .ok (some bytes.length)
  | some .dir => .ok none
  | none => .error .notFound

/-- The process dies: the tree is what is left. -/
def crash (w : World T) : World T where
  disk := w.disk
  acked := w.acked
  torn := w.torn
  stray := (w.disk.children tmpDir).map fun name => tmpDir ++ [name]

end World

/-- The answer to one call of thread `t`. -/
def handle (t : T) (choice : Choice) : (c : Call) → World T → Reply c × World T
  | .lock purpose, w => (w.index, { w with owner := some (t, purpose) })
  | .unlock index note, w => ((), w.publish t index note)
  | .now, w => (choice.now, w)
  | .newUlid, w => (choice.ulid, w)
  | .iterate index, w => (iterate choice.keyRank index.entries, w)
  | .createDirAll p, w => w.attempt (w.disk.createDirAll p)
  | .pathExists p, w => (w.disk.pathExists p, w)
  | .createFile p, w => w.attempt (w.disk.createFile p)
  | .writeAll p bytes, w => (.ok (), { w with disk := w.disk.writeAll p bytes })
  | .rename p q, w => w.attempt (w.disk.rename p q)
  | .removeFile p, w => w.attempt (w.disk.removeFile p)
  | .walk p, w => (w.disk.walk choice.pathRank p, w.startRemoval t p)
  | .unlink p, w => ((), w.unlinked p)
  | .read p, w => (w.disk.read p, w)
  | .readDir p, w => (w.disk.readDir choice.pathRank p, w)
  | .metadata p, w => (w.metadata p, w)
  | .countExpired count, w => ((), { w with expiredEvictions := w.expiredEvictions + count })
  | .countQuota, w => ((), { w with quotaEvictions := w.quotaEvictions + 1 })
  | .opened, w => ((), { w with up := true })

/-- One call of thread `t`, under any allowed choice of the environment.  Taking the
lock waits until it is free. -/
def answers (allowed : Choice → Prop) : CallStep Call Reply T (World T) :=
  fun t c w reply w' =>
    (∀ purpose, c = .lock purpose → w.owner = none) ∧
      ∃ choice, allowed choice ∧ handle t choice c w = (reply, w')

/-- A removal of `p` by `t` is apart from the put that holds the lock, if one does. -/
def Apart (t : T) (p : Path) : Option (T × Purpose) → Prop
  | some (s, .storing key _) => s = t ∨ p ≠ entryDir key
  | _ => True

instance (t : T) (p : Path) : ∀ owner : Option (T × Purpose), Decidable (Apart t p owner)
  | some (s, .storing key _) => inferInstanceAs (Decidable (s = t ∨ p ≠ entryDir key))
  | some (_, .other) => isTrue trivial
  | none => isTrue trivial

/-- No removal of an entry overlaps a put on it: a put does not take the lock while a
removal has its entry picked, and no removal starts on the entry a put holds. -/
def Calm (t : T) (w : World T) : Call → Prop
  | .lock (.storing key _) => ∀ s, entryDir key ∉ w.doomed s
  | .walk p => Apart t p w.owner
  | _ => True

instance [Fintype T] (t : T) (w : World T) : ∀ c : Call, Decidable (Calm t w c)
  | .lock (.storing key _) => inferInstanceAs (Decidable (∀ s, entryDir key ∉ w.doomed s))
  | .walk p => inferInstanceAs (Decidable (Apart t p w.owner))
  | .lock .other | .unlock .. | .now | .newUlid | .iterate _ | .createDirAll _ | .pathExists _
  | .createFile _ | .writeAll .. | .rename .. | .removeFile _ | .unlink _ | .read _ | .readDir _
  | .metadata _ | .countExpired _ | .countQuota | .opened => isTrue trivial

def calmAnswers (allowed : Choice → Prop) : CallStep Call Reply T (World T) :=
  fun t c w reply w' => Calm t w c ∧ answers allowed t c w reply w'

/-- The store on an empty volume, just opened. -/
def World.fresh : World T where
  disk := ((∅ : FileTree).insert [] .dir).insert tmpDir .dir
  up := true

end TypstMcp.Store
