/-
Auth.Keys -- the cached key set and the ids remembered as absent

`inspectKeyState` answers a lookup from the cache or gives it leave to refresh, and
`record` stores what a fetch brought.  Times are clock readings in nanoseconds.

* `inspect_none`: a refresh is allowed only at a distance from the last recorded
  success and the last recorded failure.
* `inspect_unknown`, `record_unknown`: an id is remembered as absent only while the
  cached set lacks it; a recorded set can still name an id remembered before.
* `inspect_cached`: a fresh cache answers for each of its ids that is not remembered.
-/
import TypstMcp.Auth.Token
import TypstMcp.Theory.Table

namespace TypstMcp.Auth

open TypstMcp.Theory TypstMcp.Theory.Table

set_option autoImplicit false

/-- `Duration::from_secs`. -/
def fromSecs (secs : Nat) : Nat := secs * 1000000000

/-- How long a fetched key set is trusted before being refreshed. -/
def jwksTtl : Nat := fromSecs (60 * 60)

/-- No attacker-controlled key id may force more than one refresh in this window. -/
def jwksRefreshInterval : Nat := fromSecs 30

/-- Provider failures are shared across requests instead of retried in parallel. -/
def fetchFailureBackoff : Nat := fromSecs 5

/-- Recently absent key ids are remembered briefly and in bounded space. -/
def unknownKidTtl : Nat := fromSecs 30

def unknownKidCap : Nat := 1024

structure KeyCache (Key : Type) where
  keys : Table String Key
  fetchedAt : Nat

structure KeyState (Key : Type) where
  cache : Option (KeyCache Key) := none
  unknownKids : Table String Nat := ∅
  lastFailure : Option Nat := none

/-- The clock as one inspection reads it: the `now` it is given, then for the age of the cache
(twice) and of the failure.  A reading that is skipped repeats the one before. -/
structure Readings where
  now : Nat
  ttl : Nat
  interval : Nat
  failure : Nat
  now_le : now ≤ ttl
  ttl_le : ttl ≤ interval
  interval_le : interval ≤ failure

variable {Key : Type}

def rememberUnknown (state : KeyState Key) (kid : String) (now : Nat) : KeyState Key :=
  if size state.unknownKids < unknownKidCap ∨ (state.unknownKids.lookup kid).isSome then
    { state with unknownKids := state.unknownKids.insert kid now }
  else state

/-- What is left to say once the cache has no answer. -/
def inspectFailure (state : KeyState Key) (failure : Nat) :
    Option (Except TokenError (Option Key)) :=
  if state.lastFailure.any fun failed => failure - failed < fetchFailureBackoff then
    some (.error .providerUnavailable)
  else none

/-- The entries of `unknownKids` that are still believed. -/
def retainUnknown (state : KeyState Key) (now : Nat) : KeyState Key :=
  { state with
    unknownKids := state.unknownKids.retain fun _ seen => now - seen < unknownKidTtl }

/-- Return a cached answer, or `none` when this caller should attempt a refresh. -/
def inspectKeyState (state : KeyState Key) (kid : String) (clock : Readings) :
    Option (Except TokenError (Option Key)) × KeyState Key :=
  let state := retainUnknown state clock.now
  if (state.unknownKids.lookup kid).isSome then (some (.ok none), state)
  else match state.cache with
    | none => (inspectFailure state clock.failure, state)
    | some cache =>
        if clock.ttl - cache.fetchedAt < jwksTtl then
          match cache.keys.lookup kid with
          | some key => (some (.ok (some key)), state)
          | none =>
              if clock.interval - cache.fetchedAt < jwksRefreshInterval then
                (some (.ok none), rememberUnknown state kid clock.now)
              else (inspectFailure state clock.failure, state)
        else (inspectFailure state clock.failure, state)

/-- The end of `key`: store what the fetch brought.  `now` is the reading that dates the record
and `later` the one for `rememberUnknown`. -/
def record (state : KeyState Key) (kid : String) (fetched : Except TokenError (Table String Key))
    (now later : Nat) : Except TokenError (Option Key) × KeyState Key :=
  match fetched with
  | .ok keys =>
      let found := keys.lookup kid
      let state := { state with cache := some ⟨keys, now⟩, lastFailure := none }
      (.ok found, if found.isNone then rememberUnknown state kid later else state)
  | .error err => (.error err, { state with lastFailure := some now })

/-! ## Inspecting -/

section Inspect

variable {state state' : KeyState Key} {kid : String} {clock : Readings} {now later : Nat}

@[simp] theorem rememberUnknown_cache : (rememberUnknown state kid now).cache = state.cache := by
  unfold rememberUnknown
  split <;> rfl

@[simp] theorem rememberUnknown_lastFailure :
    (rememberUnknown state kid now).lastFailure = state.lastFailure := by
  unfold rememberUnknown
  split <;> rfl

theorem rememberUnknown_bounded (bounded : size state.unknownKids ≤ unknownKidCap) :
    size (rememberUnknown state kid now).unknownKids ≤ unknownKidCap := by
  unfold rememberUnknown
  split
  next room =>
    obtain room | known := room
    · have := size_insert_le state.unknownKids kid now
      show size (state.unknownKids.insert kid now) ≤ unknownKidCap
      omega
    · obtain ⟨seen, found⟩ := Option.isSome_iff_exists.1 known
      show size (state.unknownKids.insert kid now) ≤ unknownKidCap
      rw [size_insert_of_lookup found]
      exact bounded
  next => exact bounded

theorem rememberUnknown_lookup {other : String} {seen : Nat}
    (found : (rememberUnknown state kid now).unknownKids.lookup other = some seen) :
    state.unknownKids.lookup other = some seen ∨ other = kid := by
  unfold rememberUnknown at found
  split at found
  · rw [lookup_insert_eq] at found
    split at found
    · exact .inr ‹_›
    · exact .inl found
  · exact .inl found

theorem retainUnknown_bounded (bounded : size state.unknownKids ≤ unknownKidCap) :
    size (retainUnknown state now).unknownKids ≤ unknownKidCap :=
  (size_retain_le _ _).trans bounded

theorem retainUnknown_lookup {seen : Nat} :
    (retainUnknown state now).unknownKids.lookup kid = some seen ↔
      state.unknownKids.lookup kid = some seen ∧ now - seen < unknownKidTtl := by
  rw [retainUnknown, lookup_retain_eq_some, decide_eq_true_iff]

/-- What an inspection does to the state: old entries go, and at most the asked id comes, which
the cache then lacks. -/
theorem inspect_state :
    (inspectKeyState state kid clock).2 = retainUnknown state clock.now ∨
      (∃ cache, state.cache = some cache ∧ cache.keys.lookup kid = none) ∧
        (inspectKeyState state kid clock).2 =
          rememberUnknown (retainUnknown state clock.now) kid clock.now := by
  unfold inspectKeyState
  dsimp only
  split
  · exact .inl rfl
  · split
    · exact .inl rfl
    next cache there =>
      split
      · split
        · exact .inl rfl
        next absent =>
          split
          · exact .inr ⟨⟨cache, there, absent⟩, rfl⟩
          · exact .inl rfl
      · exact .inl rfl

theorem inspect_cache : (inspectKeyState state kid clock).2.cache = state.cache := by
  obtain same | ⟨-, same⟩ := @inspect_state Key state kid clock
  · rw [same]; rfl
  · rw [same, rememberUnknown_cache]; rfl

theorem inspect_lastFailure :
    (inspectKeyState state kid clock).2.lastFailure = state.lastFailure := by
  obtain same | ⟨-, same⟩ := @inspect_state Key state kid clock
  · rw [same]; rfl
  · rw [same, rememberUnknown_lastFailure]; rfl

theorem inspect_bounded (bounded : size state.unknownKids ≤ unknownKidCap) :
    size (inspectKeyState state kid clock).2.unknownKids ≤ unknownKidCap := by
  obtain same | ⟨-, same⟩ := @inspect_state Key state kid clock
  · rw [same]
    exact retainUnknown_bounded bounded
  · rw [same]
    exact rememberUnknown_bounded (retainUnknown_bounded bounded)

/-- An id remembered after an inspection was remembered before, or the cache lacks it. -/
theorem inspect_unknown {other : String} {seen : Nat}
    (found : (inspectKeyState state kid clock).2.unknownKids.lookup other = some seen) :
    state.unknownKids.lookup other = some seen ∨
      ∃ cache, state.cache = some cache ∧ cache.keys.lookup other = none := by
  obtain same | ⟨lacking, same⟩ := @inspect_state Key state kid clock
  · rw [same, retainUnknown_lookup] at found
    exact .inl found.1
  · rw [same] at found
    obtain before | rfl := rememberUnknown_lookup found
    · exact .inl (retainUnknown_lookup.1 before).1
    · exact .inr lacking

theorem inspectFailure_none {failure : Nat}
    (silent : @inspectFailure Key state failure = none) {failed : Nat}
    (last : state.lastFailure = some failed) : failed + fetchFailureBackoff ≤ failure := by
  unfold inspectFailure at silent
  rw [last, Option.any_some] at silent
  split at silent
  · cases silent
  next old =>
    have positive : 0 < fetchFailureBackoff := by decide
    rw [decide_eq_true_iff] at old
    omega

/-- Leave to refresh is given only some time after the last success and the last failure. -/
theorem inspect_none (leave : (inspectKeyState state kid clock).1 = none) :
    (∀ cache, state.cache = some cache →
        cache.fetchedAt + jwksRefreshInterval ≤ clock.failure) ∧
      ∀ failed, state.lastFailure = some failed →
        failed + fetchFailureBackoff ≤ clock.failure := by
  have later := clock.interval_le
  have late := clock.ttl_le
  have shorter : jwksRefreshInterval ≤ jwksTtl := by decide
  have positive : 0 < jwksRefreshInterval := by decide
  unfold inspectKeyState at leave
  dsimp only at leave
  split at leave
  · cases leave
  · split at leave
    next absent =>
      refine ⟨fun cache there => ?_, fun failed last => inspectFailure_none leave last⟩
      rw [show state.cache = none from absent] at there
      cases there
    next cache there =>
      have same : ∀ other, state.cache = some other → other = cache := fun other found =>
        Option.some.inj (found.symm.trans there)
      split at leave
      · split at leave
        · cases leave
        · split at leave
          · cases leave
          next old =>
            refine ⟨fun other found => ?_, fun failed last => inspectFailure_none leave last⟩
            rw [same other found]
            omega
      next old =>
        refine ⟨fun other found => ?_, fun failed last => inspectFailure_none leave last⟩
        rw [same other found]
        omega

/-- A fresh cache answers for each of its ids that is not remembered as absent. -/
theorem inspect_cached {cache : KeyCache Key} {key : Key} (there : state.cache = some cache)
    (fresh : clock.ttl - cache.fetchedAt < jwksTtl) (named : cache.keys.lookup kid = some key)
    (forgotten : ∀ seen, state.unknownKids.lookup kid = some seen →
      unknownKidTtl ≤ clock.now - seen) :
    inspectKeyState state kid clock = (some (.ok (some key)), retainUnknown state clock.now) := by
  have absent : ((retainUnknown state clock.now).unknownKids.lookup kid).isSome = false := by
    rw [Option.isSome_eq_false_iff, Option.isNone_iff_eq_none, Option.eq_none_iff_forall_ne_some]
    intro seen found
    obtain ⟨before, young⟩ := retainUnknown_lookup.1 found
    have := forgotten seen before
    omega
  unfold inspectKeyState
  dsimp only
  rw [absent, if_neg Bool.false_ne_true, show (retainUnknown state clock.now).cache = some cache
    from there]
  dsimp only
  rw [if_pos fresh, named]

end Inspect

/-! ## Recording -/

section Record

variable {state : KeyState Key} {kid : String} {now later : Nat} {keys : Table String Key}
  {fetched : Except TokenError (Table String Key)}

theorem record_bounded (bounded : size state.unknownKids ≤ unknownKidCap) :
    size (record state kid fetched now later).2.unknownKids ≤ unknownKidCap := by
  cases fetched with
  | error _ => exact bounded
  | ok keys =>
      unfold record
      dsimp only
      split
      · exact rememberUnknown_bounded bounded
      · exact bounded

theorem record_ok_cache :
    (record state kid (.ok keys) now later).2.cache = some ⟨keys, now⟩ := by
  unfold record
  dsimp only
  split
  · rw [rememberUnknown_cache]
  · rfl

theorem record_ok_lastFailure :
    (record state kid (.ok keys) now later).2.lastFailure = none := by
  unfold record
  dsimp only
  split
  · rw [rememberUnknown_lastFailure]
  · rfl

/-- An id remembered after a set was recorded was remembered before, or the set lacks it. -/
theorem record_unknown {other : String} {seen : Nat}
    (found : (record state kid (.ok keys) now later).2.unknownKids.lookup other = some seen) :
    state.unknownKids.lookup other = some seen ∨ keys.lookup other = none := by
  unfold record at found
  dsimp only at found
  split at found
  next absent =>
    obtain before | rfl := rememberUnknown_lookup found
    · exact .inl before
    · exact .inr (Option.isNone_iff_eq_none.1 absent)
  next => exact .inl found

end Record

end TypstMcp.Auth
