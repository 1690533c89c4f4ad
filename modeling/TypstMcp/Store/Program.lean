/-
Store.Program -- the store's operations, call by call

Each function of the store is the program of its calls: taking and dropping the
index lock, reading the clock, minting a name, and the file-system calls, in the
order the source makes them.  What the source computes between two calls is a
pure function of `Store.Index`.  The lock hands out the index and takes the new
value back when the guard is dropped; nobody sees it in between.

Two arguments are auxiliary: they record for a proof what a lock section is for
(`Purpose`) and what it settles (`Note`), and no program reads them.
-/
import TypstMcp.Store.Index
import TypstMcp.Theory.Prog

namespace TypstMcp.Store

open TypstMcp.Theory TypstMcp.Theory.Table
open TypstMcp.Auth (TenantId)

set_option autoImplicit false

/-! ## Calls -/

/-- What a lock section is taken for. -/
inductive Purpose
  | storing (key : Key) (size : Nat)
  | other
  deriving DecidableEq

/-- What a lock section settles as its guard is dropped. -/
inductive Note
  | nothing
  /-- A put counted this file in the entry's bytes and will return `Ok`. -/
  | counted (key : Key) (name : String) (bytes : Bytes)
  /-- The keys this call has yet to remove. -/
  | doomed (keys : List Key)

inductive Call
  | lock (purpose : Purpose)
  | unlock (index : Index) (note : Note)
  | now
  | newUlid
  | iterate (index : Index)
  | createDirAll (path : Path)
  | pathExists (path : Path)
  | createFile (path : Path)
  | writeAll (path : Path) (bytes : Bytes)
  | rename (source target : Path)
  | removeFile (path : Path)
  | walk (path : Path)
  | unlink (path : Path)
  | read (path : Path)
  | readDir (path : Path)
  | metadata (path : Path)
  | countExpired (count : Nat)
  | countQuota
  /-- `Store::open` hands its caller the store. -/
  | opened

/-- The reply to each call.  `metadata` answers with the length of a regular file,
and with `none` for anything else that exists. -/
@[reducible] def Reply : Call → Type
  | .lock _ => Index
  | .unlock .. => Unit
  | .now => Nat
  | .newUlid => String
  | .iterate _ => List (Key × Entry)
  | .createDirAll _ => Except ErrorKind Unit
  | .pathExists _ => Bool
  | .createFile _ => Except ErrorKind Unit
  | .writeAll .. => Except ErrorKind Unit
  | .rename .. => Except ErrorKind Unit
  | .removeFile _ => Except ErrorKind Unit
  | .walk _ => List Path
  | .unlink _ => Unit
  | .read _ => Except ErrorKind Bytes
  | .readDir _ => Except ErrorKind (List String)
  | .metadata _ => Except ErrorKind (Option Nat)
  | .countExpired _ => Unit
  | .countQuota => Unit
  | .opened => Unit

abbrev StoreProg := Prog Call Reply

abbrev perform (c : Call) : StoreProg (Reply c) := Prog.perform c

/-! ## Files -/

/-- `std::fs::write`: open truncating, then write everything. -/
def fsWrite (path : Path) (bytes : Bytes) : StoreProg (Except ErrorKind Unit) := do
  match ← perform (.createFile path) with
  | .error kind => return .error kind
  | .ok () => perform (.writeAll path bytes)

/-- `std::fs::remove_dir_all`: children before their parents, each with its own
unlink.  Every caller drops the result. -/
def unlinkAll : List Path → StoreProg Unit
  | [] => return
  | path :: rest => do
      perform (.unlink path)
      unlinkAll rest

def removeDirAll (path : Path) : StoreProg Unit := do
  unlinkAll (← perform (.walk path))

/-- The temporary file a write goes through. -/
def partPath (ulid : String) : Path := tmpDir ++ [Kind.output.idPrefix ++ ulid ++ ".part"]

def writeAtomic (path : Path) (bytes : Bytes) : StoreProg (Except StoreError Unit) := do
  let tmp := partPath (← perform .newUlid)
  match ← fsWrite tmp bytes with
  | .error kind => return .error (.io tmp kind)
  | .ok () =>
    match ← perform (.rename tmp path) with
    | .ok () => return .ok ()
    | .error kind =>
        let _ ← perform (.removeFile tmp)
        return .error (.io path kind)

def writeMeta (codec : MetaCodec) (dir : Path) (entry : Entry) :
    StoreProg (Except StoreError Unit) :=
  writeAtomic (dir ++ [metaName]) (codec.toVec entry)

/-! ## Eviction -/

/-- Evict oldest-first until the global ceilings are respected.  Each turn of the
loop takes one entry out, so the number of entries bounds the turns. -/
def evictLocked (limits : Limits) : Nat → Index → StoreProg Index
  | 0, index => return index
  | fuel + 1, index =>
      if index.exceeded limits then do
        match eldest (·.createdAt) (← perform (.iterate index)) with
        | none => return index
        | some (key, _) =>
            removeDirAll (entryDir key)
            perform .countQuota
            evictLocked limits fuel (index.removeFromIndex key)
      else return index

def evict (limits : Limits) (index : Index) : StoreProg Index :=
  evictLocked limits (size index.entries) index

/-! ## Operations -/

/-- What a put does under the lock: its result, the index it leaves, and what it
counted. -/
def putLocked (limits : Limits) (codec : MetaCodec) (key : Key) (name : String) (bytes : Bytes)
    (info : Meta) (index : Index) : StoreProg (Except StoreError Entry × Index × Note) := do
  let size := bytes.length
  let dir := entryDir key
  let path := dir ++ [safeName name]
  let refuse (error : StoreError) : Except StoreError Entry × Index × Note :=
    (.error error, index, .nothing)
  match index.refusal limits key size with
  | some error => return refuse error
  | none =>
    match ← perform (.createDirAll dir) with
    | .error kind => return refuse (.io dir kind)
    | .ok () =>
      if ← perform (.pathExists path) then
        return refuse (.io path .alreadyExists)
      else
        match ← writeAtomic path bytes with
        | .error error => return refuse error
        | .ok () =>
          let entry := index.nextEntry limits key size (← perform .now) info
          match ← writeMeta codec dir entry with
          | .error error =>
              let _ ← perform (.removeFile path)
              return refuse error
          | .ok () =>
              let index ← evict limits (index.commit key entry size)
              return (.ok entry, index, .counted key (safeName name) bytes)

def putWithId (limits : Limits) (codec : MetaCodec) (tenant : TenantId) (kind : Kind)
    (id name : String) (bytes : Bytes) (info : Meta) : StoreProg (Except StoreError Entry) :=
  match validateId kind id with
  | .error error => return .error error
  | .ok id => do
      let key : Key := ⟨tenant, kind, id⟩
      let index ← perform (.lock (.storing key bytes.length))
      let (result, index, note) ← putLocked limits codec key name bytes info index
      perform (.unlock index note)
      return result

/-- Mint an id, a kind prefix plus a ULID, and store under it. -/
def put (limits : Limits) (codec : MetaCodec) (tenant : TenantId) (kind : Kind) (name : String)
    (bytes : Bytes) (info : Meta) : StoreProg (Except StoreError Entry) := do
  let ulid ← perform .newUlid
  putWithId limits codec tenant kind (kind.idPrefix ++ ulid) name bytes info

/-- The entry under a key, if it has not expired. -/
def checkLive (key : Key) : StoreProg (Except StoreError Entry) := do
  let index ← perform (.lock .other)
  match index.entries.lookup key with
  | none =>
      perform (.unlock index .nothing)
      return .error (.notFound key.kind key.id)
  | some entry =>
      if entry.isExpired (← perform .now) then
        perform (.unlock index .nothing)
        return .error (.expired key.kind key.id)
      else
        perform (.unlock index .nothing)
        return .ok entry

def get (tenant : TenantId) (kind : Kind) (id name : String) :
    StoreProg (Except StoreError Bytes) :=
  match validateId kind id with
  | .error error => return .error error
  | .ok id => do
      let key : Key := ⟨tenant, kind, id⟩
      match ← checkLive key with
      | .error error => return .error error
      | .ok _ =>
          let path := entryDir key ++ [safeName name]
          match ← perform (.read path) with
          | .ok bytes => return .ok bytes
          | .error .notFound => return .error (.notFound kind id)
          | .error source => return .error (.io path source)

/-- Metadata for one entry. -/
def entry (tenant : TenantId) (kind : Kind) (id : String) :
    StoreProg (Except StoreError Entry) :=
  match validateId kind id with
  | .error error => return .error error
  | .ok id => checkLive ⟨tenant, kind, id⟩

/-- Newest first, ids breaking ties. -/
def listedBefore (a b : Entry) : Prop :=
  b.createdAt < a.createdAt ∨ (a.createdAt = b.createdAt ∧ a.id ≤ b.id)

instance : DecidableRel listedBefore := fun a b =>
  inferInstanceAs (Decidable (b.createdAt < a.createdAt ∨ (a.createdAt = b.createdAt ∧ a.id ≤ b.id)))

/-- Every live entry of `kind` for `tenant`, newest first. -/
def list (tenant : TenantId) (kind : Kind) : StoreProg (List Entry) := do
  let now ← perform .now
  let index ← perform (.lock .other)
  let order ← perform (.iterate index)
  perform (.unlock index .nothing)
  let live := order.filter fun (key, entry) =>
    key.tenant = tenant && key.kind = kind && !entry.isExpired now
  return (live.map (·.2)).insertionSort listedBefore

/-- Remove one entry; `rest` is what the caller still has to remove after it. -/
def remove (key : Key) (rest : List Key) : StoreProg Unit := do
  removeDirAll (entryDir key)
  let index ← perform (.lock .other)
  perform (.unlock (index.removeFromIndex key) (.doomed rest))

/-- Delete one live entry belonging to `tenant`. -/
def delete (tenant : TenantId) (kind : Kind) (id : String) :
    StoreProg (Except StoreError Entry) :=
  match validateId kind id with
  | .error error => return .error error
  | .ok id => do
      let key : Key := ⟨tenant, kind, id⟩
      match ← checkLive key with
      | .error error => return .error error
      | .ok entry =>
          remove key []
          return .ok entry

def removeEach : List Key → StoreProg Unit
  | [] => return
  | key :: rest => do
      remove key rest
      removeEach rest

/-- Delete everything that has passed its TTL; the number removed. -/
def reap : StoreProg Nat := do
  let now ← perform .now
  let index ← perform (.lock .other)
  let order ← perform (.iterate index)
  let expired := (order.filter fun (_, entry) => entry.isExpired now).map (·.1)
  perform (.unlock index (.doomed expired))
  removeEach expired
  perform (.countExpired expired.length)
  return expired.length

/-! ## Opening -/

def readMeta (codec : MetaCodec) (dir : Path) : StoreProg (Option Entry) := do
  match ← perform (.read (dir ++ [metaName])) with
  | .error _ => return none
  | .ok bytes => return codec.fromSlice bytes

/-- `u64::checked_add` over the lengths of the files but the metadata. -/
def sumLengths (dir : Path) : List String → Nat → StoreProg (Option Nat)
  | [], total => return some total
  | name :: rest, total =>
      if name = metaName then sumLengths dir rest total
      else do
        match ← perform (.metadata (dir ++ [name])) with
        | .ok (some length) =>
            if total + length < u64Size then sumLengths dir rest (total + length)
            else return none
        | _ => return none

def payloadBytes (dir : Path) : StoreProg (Option Nat) := do
  match ← perform (.readDir dir) with
  | .error _ => return none
  | .ok names => sumLengths dir names 0

/-- One entry directory of the walk: taken into the index, or removed rather than
left as bytes the accounting cannot see. -/
def scanEntry (codec : MetaCodec) (key : Key) (index : Index) : StoreProg Index := do
  let dir := entryDir key
  match ← readMeta codec dir with
  | none =>
      removeDirAll dir
      return index
  | some entry =>
      if entry.id ≠ key.id ∨ entry.kind ≠ key.kind ∨ (validateId key.kind key.id).isOk = false then
        removeDirAll dir
        return index
      else
        match ← payloadBytes dir with
        | none =>
            removeDirAll dir
            return index
        | some bytes => return index.adopt key { entry with bytes := bytes }

def scanEntries (codec : MetaCodec) (tenant : TenantId) (kind : Kind) :
    List String → Index → StoreProg Index
  | [], index => return index
  | id :: rest, index => do
      let index ← scanEntry codec ⟨tenant, kind, id⟩ index
      scanEntries codec tenant kind rest index

def scanKinds (codec : MetaCodec) (tenant : TenantId) : List Kind → Index → StoreProg Index
  | [], index => return index
  | kind :: rest, index => do
      match ← perform (.readDir ["t_" ++ tenant.str, kind.dir]) with
      | .error _ => scanKinds codec tenant rest index
      | .ok ids =>
          let index ← scanEntries codec tenant kind ids index
          scanKinds codec tenant rest index

/-- The tenant a directory under the root belongs to. -/
def tenantOfDir (name : String) : Option TenantId :=
  (stripPrefix name "t_").bind TenantId.parse

def scanTenants (codec : MetaCodec) : List String → Index → StoreProg Index
  | [], index => return index
  | name :: rest, index => do
      match tenantOfDir name with
      | none => scanTenants codec rest index
      | some tenant =>
          let index ← scanKinds codec tenant [.output, .asset, .template] index
          scanTenants codec rest index

/-- Rebuild the index by walking the root. -/
def rebuildIndex (limits : Limits) (codec : MetaCodec) : StoreProg Unit := do
  match ← perform (.readDir []) with
  | .error _ => return
  | .ok names =>
      let index ← scanTenants codec names {}
      let index ← evict limits index
      let _ ← perform (.lock .other)
      perform (.unlock index .nothing)

/-- `Store::open`. -/
def openStore (limits : Limits) (codec : MetaCodec) : StoreProg (Except StoreError Unit) := do
  match ← perform (.createDirAll []) with
  | .error kind => return .error (.io [] kind)
  | .ok () =>
    match ← perform (.createDirAll tmpDir) with
    | .error kind => return .error (.io tmpDir kind)
    | .ok () =>
        rebuildIndex limits codec
        perform .opened
        return .ok ()

/-! ## Requests -/

/-- A call on the store. -/
inductive Op
  | put (tenant : TenantId) (kind : Kind) (name : String) (bytes : Bytes) (info : Meta)
  | putWithId (tenant : TenantId) (kind : Kind) (id name : String) (bytes : Bytes) (info : Meta)
  | get (tenant : TenantId) (kind : Kind) (id name : String)
  | entry (tenant : TenantId) (kind : Kind) (id : String)
  | list (tenant : TenantId) (kind : Kind)
  | delete (tenant : TenantId) (kind : Kind) (id : String)
  | reap

/-- What a call returns. -/
inductive Outcome
  | entry (result : Except StoreError Entry)
  | bytes (result : Except StoreError Bytes)
  | entries (result : List Entry)
  | count (result : Nat)

def Op.program (limits : Limits) (codec : MetaCodec) : Op → StoreProg Outcome
  | .put tenant kind name bytes info =>
      return .entry (← Store.put limits codec tenant kind name bytes info)
  | .putWithId tenant kind id name bytes info =>
      return .entry (← Store.putWithId limits codec tenant kind id name bytes info)
  | .get tenant kind id name => return .bytes (← Store.get tenant kind id name)
  | .entry tenant kind id => return .entry (← Store.entry tenant kind id)
  | .list tenant kind => return .entries (← Store.list tenant kind)
  | .delete tenant kind id => return .entry (← Store.delete tenant kind id)
  | .reap => return .count (← Store.reap)

end TypstMcp.Store
