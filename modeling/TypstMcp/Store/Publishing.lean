/-
Store.Publishing -- the index a put leaves agrees with the disk

A put ends (`PutEnd`) with an index in hand and the lock still held.  Publishing
that index keeps the invariant: what the put stored is acknowledged and there,
what it evicted is gone, and the rest is as the put found it.
-/
import TypstMcp.Store.Writing

namespace TypstMcp.Store

open TypstMcp.Theory TypstMcp.Theory.Table TypstMcp.Theory.FileTree
open TypstMcp.Auth (TenantId)

set_option autoImplicit false
set_option linter.unusedSectionVars false

variable {T : Type} [DecidableEq T]
variable {codec : MetaCodec} {plain : Prop} {boot : T} {allowed : Choice → Prop} {t : T}
variable {limits : Limits} {key : Key} {size : Nat} {name : String} {bytes : Bytes} {info : Meta}
variable {w0 w1 w : World T} {content : Path → Option Node}

/-! ## A put that changed nothing -/

theorem Mid.same (mid : Mid t key w0 none (fun p => w0.disk.lookup p) w) {other : Key}
    (free : w.Undoomed other) {p : Path} (under : entryDir other <+: p) :
    w.disk.lookup p = w0.disk.lookup p := by
  by_cases mine : other = key
  · subst mine; exact mid.here p under
  · exact mid.others other mine free p under

theorem Mid.infoAt (begun : PutStart codec plain t key size w0)
    (mid : Mid t key w0 none content w) (own : InfoAt codec w.disk key) (other : Key) :
    InfoAt codec w.disk other := by
  by_cases mine : other = key
  · subst mine; exact own
  · exact fun bytes found =>
      begun.info other bytes (mid.le other mine _ _ (List.prefix_append _ _) found)

/-! ## A put that stored its file -/

section Stored

variable {entry : Entry} {index1 index' : Index}

theorem dirStored_info : dirStored codec key name bytes entry w0 (entryDir key ++ [metaName]) =
    some (.file (codec.toVec entry)) := by
  simp [dirStored]

theorem dirStored_payload (safe : name ≠ metaName) :
    dirStored codec key name bytes entry w0 (entryDir key ++ [name]) = some (.file bytes) := by
  rw [dirStored, Function.update_of_ne, Function.update_self]
  exact fun same => safe (file_inj same).2

theorem dirStored_other {other : String} (apart : other ≠ name) (safe : other ≠ metaName) :
    dirStored codec key name bytes entry w0 (entryDir key ++ [other]) =
      w0.disk.lookup (entryDir key ++ [other]) := by
  rw [dirStored, Function.update_of_ne, Function.update_of_ne, dirMade_file]
  · exact fun same => apart (file_inj same).2
  · exact fun same => safe (file_inj same).2

/-- The entry a put wrote, complete with the file it acknowledges. -/
theorem stored_complete (begun : PutStart codec plain t key size w0)
    (absent : w0.disk.lookup (entryDir key ++ [name]) = none)
    (named : entry.id = key.id ∧ entry.kind = key.kind)
    (mid : Mid t key w0 none (dirStored codec key name bytes entry w0) w1) :
    Complete codec w1.disk ((name, bytes) :: w0.acked key) key entry where
  info := ⟨_, (mid.here _ (List.prefix_append _ _)).trans dirStored_info, records_toVec entry⟩
  files n b inside safe := by
    rw [mid.here _ (List.prefix_append _ _)]
    rcases List.mem_cons.1 inside with same | before
    · obtain ⟨rfl, rfl⟩ := Prod.mk.inj same
      exact dirStored_payload safe
    · have there := begun.acked n b before safe
      rw [dirStored_other (fun same => ?_) safe]
      · exact there
      · rw [same, absent] at there
        exact absurd there (by simp)
  id := named.1
  kind := named.2

/-- Where an eviction stops, disk and index agree on every key nobody is removing. -/
theorem Evicting.good {files : Key → List (String × Bytes)} {ranks : (Key → Nat) → Prop}
    (evicting : Evicting t w1 index1 index' none w) (evicts : Evicts limits ranks index1 index')
    (before : ∀ other, w1.Undoomed other → Good codec index1 files w1.disk other)
    {other : Key} (free : w.Undoomed other) : Good codec index' files w.disk other := by
  have good := before other (evicting.fixed.undoomed free)
  have keep : index'.entries.lookup other = index1.entries.lookup other →
      Good codec index' files w.disk other := fun same => by
    have moved := good.congr (evicting.kept other (by simp) free same)
    exact ⟨fun entry found => moved.listed entry (same ▸ found),
      fun absent => moved.unlisted (same ▸ absent)⟩
  rcases evicts.sub other with gone | same
  · by_cases was : index1.entries.lookup other = none
    · exact keep (gone.trans was.symm)
    · refine ⟨fun entry found => ?_, fun _ => evicting.gone other (by simp) free gone was⟩
      rw [gone] at found
      exact absurd found (by simp)
  · exact keep same

/-- The files a put leaves acknowledged, before eviction has its say. -/
def ackedWith (w0 : World T) (key : Key) (name : String) (bytes : Bytes) (other : Key) :
    List (String × Bytes) :=
  if other = key then (name, bytes) :: w0.acked key else w0.acked other

theorem committed_good (begun : PutStart codec plain t key size w0)
    (absent : w0.disk.lookup (entryDir key ++ [name]) = none)
    (named : entry.id = key.id ∧ entry.kind = key.kind)
    (mid : Mid t key w0 none (dirStored codec key name bytes entry w0) w1) {other : Key}
    (free : w1.Undoomed other) :
    Good codec (w0.index.commit key entry size) (ackedWith w0 key name bytes) w1.disk other := by
  by_cases mine : other = key
  · subst mine
    refine ⟨fun entry' found => ?_, fun gone => ?_⟩
    · obtain rfl : entry = entry' := by simpa using found
      rw [ackedWith, if_pos rfl]
      exact stored_complete begun absent named mid
    · simp at gone
  · have good := (begun.good other (mid.fixed.undoomed free)).congr (mid.others other mine free)
    have same : (w0.index.commit key entry size).entries.lookup other =
        w0.index.entries.lookup other := by
      rw [Index.lookup_commit, if_neg mine]
    refine ⟨fun entry' found => ?_, fun gone => good.unlisted (same ▸ gone)⟩
    rw [ackedWith, if_neg mine]
    exact good.listed entry' (same ▸ found)

end Stored

/-! ## Publishing -/

/-- What an unlock acknowledges, for an entry the new index holds. -/
theorem ackedAfter_listed {index : Index} {note : Note} {other : Key} {entry : Entry}
    (found : index.entries.lookup other = some entry) :
    w.ackedAfter index note other = match note with
      | .counted stored name bytes =>
          if other = stored then (name, bytes) :: w.acked other else w.acked other
      | _ => w.acked other := by
  unfold World.ackedAfter
  rw [found]
  rfl

/-- An unlock that counts nothing acknowledges nothing new. -/
theorem acked_publish {index : Index} {note : Note} {other : Key} {entry : Entry}
    (found : index.entries.lookup other = some entry)
    (uncounted : ∀ key name bytes, note ≠ .counted key name bytes) :
    (w.publish t index note).acked other = w.acked other := by
  have after : (w.publish t index note).acked other = w.ackedAfter index note other := rfl
  rw [after, ackedAfter_listed found]
  cases note with
  | counted key name bytes => exact absurd rfl (uncounted key name bytes)
  | nothing => rfl
  | doomed keys => rfl

theorem ackedAfter_unlisted {index : Index} {note : Note} {other : Key}
    (absent : index.entries.lookup other = none) : w.ackedAfter index note other = [] := by
  unfold World.ackedAfter
  rw [absent]
  rfl

/-- Agreement does not ask about the files of entries the index does not hold. -/
theorem Good.acked {index : Index} {files files' : Key → List (String × Bytes)}
    {disk : FileTree} {other : Key} (good : Good codec index files disk other)
    (same : ∀ entry, index.entries.lookup other = some entry → files' other = files other) :
    Good codec index files' disk other :=
  ⟨fun entry found => by rw [same entry found]; exact good.listed entry found, good.unlisted⟩

/-- Serving follows from agreement, and from serving before for an entry whose
acknowledged files stay as they are. -/
theorem serves_publish {index : Index} {note : Note}
    (before : ∀ other, entryDir other ∈ w.torn ∨ w.Serves other)
    (good : ∀ other, w.Undoomed other → Good codec index (w.ackedAfter index note) w.disk other)
    (unchanged : ∀ other, ¬ w.Undoomed other → ∀ entry, index.entries.lookup other = some entry →
      w.ackedAfter index note other = w.acked other) (other : Key) :
    entryDir other ∈ w.torn ∨ (w.publish t index note).Serves other := by
  cases found : index.entries.lookup other with
  | none =>
      refine Or.inr fun _ n b inside => ?_
      have none_ : (w.publish t index note).acked other = [] := ackedAfter_unlisted found
      rw [none_] at inside
      exact absurd inside (by simp)
  | some entry =>
      by_cases free : w.Undoomed other
      · exact Or.inr fun _ => ((good other free).listed entry found).files
      · rcases before other with torn | serves
        · exact Or.inl torn
        · refine Or.inr fun present n b inside safe => ?_
          have same : (w.publish t index note).acked other = w.acked other :=
            unchanged other free entry found
          rw [same] at inside
          exact serves present n b inside safe

/-- A put that is over, as its index is published. -/
structure PutEnded (codec : MetaCodec) (w : World T) (index : Index) (note : Note) : Prop where
  info : ∀ other, InfoAt codec w.disk other
  parts : ∀ name, (w.disk.lookup (tmpDir ++ [name])).isSome → tmpDir ++ [name] ∈ w.stray
  good : ∀ other, w.Undoomed other →
    Good codec index (w.ackedAfter index note) w.disk other
  unchanged : ∀ other, ¬ w.Undoomed other → ∀ entry, index.entries.lookup other = some entry →
    w.ackedAfter index note other = w.acked other

theorem refused_ended (begun : PutStart codec plain t key size w0)
    (mid : Mid t key w0 none (fun p => w0.disk.lookup p) w) :
    PutEnded codec w w0.index .nothing where
  info := mid.infoAt begun fun bytes found => begun.info key bytes <| by
    rw [← mid.here _ (List.prefix_append _ _)]; exact found
  parts name present := by
    rw [mid.fixed.stray]; exact mid.parts name (by simp) present
  good other free := by
    refine ((begun.good other (mid.fixed.undoomed free)).congr fun p => mid.same free).acked ?_
    intro entry found
    rw [ackedAfter_listed found, mid.fixed.acked]
  unchanged other _ entry found := by rw [ackedAfter_listed found]

theorem stored_ended {entry : Entry} {index' : Index} {ranks : (Key → Nat) → Prop}
    (begun : PutStart codec plain t key size w0)
    (absent : w0.disk.lookup (entryDir key ++ [name]) = none)
    (named : entry.id = key.id ∧ entry.kind = key.kind)
    (mid : Mid t key w0 none (dirStored codec key name bytes entry w0) w1)
    (evicts : Evicts limits ranks (w0.index.commit key entry size) index')
    (evicting : Evicting t w1 (w0.index.commit key entry size) index' none w) :
    PutEnded codec w index' (.counted key name bytes) where
  info other := by
    have own := (stored_complete begun absent named mid).infoAt
    exact (mid.infoAt begun own other).of_le evicting.le
  parts n present := by
    obtain ⟨node, found⟩ := Option.isSome_iff_exists.1 present
    rw [evicting.fixed.stray, mid.fixed.stray]
    exact mid.parts n (by simp) (by rw [evicting.le _ _ found]; rfl)
  good other free := by
    have good := evicting.good evicts (fun other free => committed_good begun absent named mid free)
      free
    refine good.acked fun entry' found => ?_
    rw [ackedAfter_listed found, evicting.fixed.acked, mid.fixed.acked]
    by_cases mine : other = key
    · subst mine; simp [ackedWith]
    · simp [ackedWith, mine]
  unchanged other doomed entry' found := by
    rw [ackedAfter_listed found]
    refine if_neg fun mine => doomed ?_
    rw [mine]
    exact (mid.fixed.trans evicting.fixed).spares key size begun.owned begun.free

/-- However a put ends, its index agrees with the disk. -/
theorem PutEnd.ended (begun : PutStart codec plain t key bytes.length w0)
    {out : Except StoreError Entry × Index × Note}
    (ended : PutEnd limits codec allowed t key name bytes info w0 out w) :
    PutEnded codec w out.2.1 out.2.2 := by
  cases ended with
  | refused full mid => exact refused_ended begun mid
  | taken room there mid => exact refused_ended begun mid
  | stored room absent may made mid evicts evicting =>
      exact stored_ended begun absent (made ▸ nextEntry_named begun _ _) mid evicts evicting

theorem PutEnd.fixed {out : Except StoreError Entry × Index × Note}
    (ended : PutEnd limits codec allowed t key name bytes info w0 out w) : Fixed t w0 w := by
  cases ended with
  | refused full mid => exact mid.fixed
  | taken room there mid => exact mid.fixed
  | stored room absent may made mid evicts evicting => exact mid.fixed.trans evicting.fixed

theorem PutEnd.note {out : Except StoreError Entry × Index × Note}
    (ended : PutEnd limits codec allowed t key name bytes info w0 out w) (s : T) :
    w.doomedAfter t out.2.2 s = w.doomed s := by
  cases ended <;> rfl

theorem lasting_putEnd (begun : PutStart codec plain t key bytes.length w0)
    {out : Except StoreError Entry × Index × Note} :
    Lasting codec plain boot t
      (PutEnd limits codec allowed t key name bytes info w0 out) := by
  intro w w' inv working kept ended
  cases ended with
  | refused full mid => exact .refused full (lasting_mid begun w w' inv working kept mid)
  | taken room there mid => exact .taken room there (lasting_mid begun w w' inv working kept mid)
  | stored room absent may made mid evicts evicting =>
      exact .stored room absent may made mid evicts
        (lasting_evicting w w' inv working kept evicting)

/-- **Publishing the index of a put keeps the invariant.** -/
theorem inv_putEnd (begun : PutStart codec plain t key bytes.length w0)
    {out : Except StoreError Entry × Index × Note}
    (ended : PutEnd limits codec allowed t key name bytes info w0 out w)
    (inv : Inv codec plain w) : Inv codec plain (w.publish t out.2.1 out.2.2) := by
  have over_ := ended.ended begun
  have undoomed : ∀ other, (w.publish t out.2.1 out.2.2).Undoomed other → w.Undoomed other :=
    fun other free s => ended.note s ▸ free s
  exact inv_publish inv over_.info over_.parts
    (serves_publish inv.serves over_.good over_.unchanged)
    fun _ other free => over_.good other (undoomed other free)

end TypstMcp.Store
