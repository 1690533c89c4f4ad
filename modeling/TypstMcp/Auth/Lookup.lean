/-
Auth.Lookup -- concurrent key lookups and their refreshes

Any number of tasks run `TokenValidator::key`, interleaved at its await points.  The
cache mutex is never held across one, so what a task does under it is one action;
the refresh mutex is held from `acquire` to the end of the lookup.

* `refresh_throttled`: at most one fetch is in flight, none starts too soon after a
  recorded success or failure, and `unknownKids` stays bounded.
* `cached_key_served`: if no recorded set names an id that is still remembered as
  absent, a lookup of an id in the fresh cache is answered with its key at once.
* `rotated_in_key_refused`: an id that was looked up before the provider published it
  is refused although a later refresh brought its key.
-/
import TypstMcp.Auth.Keys
import TypstMcp.Theory.Play

namespace TypstMcp.Auth

open TypstMcp.Theory TypstMcp.Theory.Table

set_option autoImplicit false
set_option linter.unusedSectionVars false

/-! ## Tasks and actions -/

/-- Where a lookup stands. -/
inductive Pc (Key : Type)
  /-- About to inspect the cache. -/
  | first
  /-- Waiting for the refresh mutex. -/
  | waiting
  /-- Owning it, about to inspect the cache again. -/
  | second
  /-- Given leave at the reading `since`. -/
  | starting (since : Nat)
  | fetching (started : Nat)
  /-- The fetch is over, the cache mutex not yet taken. -/
  | recording (finished : Nat) (fetched : Except TokenError (Table String Key))
  | done (answer : Except TokenError (Option Key))
  deriving DecidableEq

/-- The refresh mutex is held. -/
def Pc.Owns {Key : Type} : Pc Key → Prop
  | .first | .waiting | .done _ => False
  | .second | .starting _ | .fetching _ | .recording _ _ => True

/-- What happened to the fetches, for the statements only. -/
inductive Event
  | started (at_ : Nat)
  | succeeded (fetchedAt : Nat)
  | failed (failedAt : Nat)
  deriving DecidableEq

/-- One validator and the lookups running on it; `T` names the lookups. -/
structure Conf (Key T : Type) where
  keys : KeyState Key := {}
  /-- The last clock reading under the cache mutex, which the next one follows. -/
  released : Nat := 0
  refresh : Option T := none
  lookups : T → Option (String × Pc Key) := fun _ => none
  /-- Newest first. -/
  log : List Event := []

inductive Action (Key T : Type)
  | call (t : T) (kid : String)
  | look (t : T) (clock : Readings)
  | acquire (t : T)
  | lookAgain (t : T) (clock : Readings)
  | start (t : T) (at_ : Nat)
  | finish (t : T) (at_ : Nat) (fetched : Except TokenError (Table String Key))
  | record (t : T) (now later : Nat)
  /-- The future is dropped at an await point. -/
  | drop (t : T)

section Act

variable {Key T : Type} [DecidableEq T]

def Conf.goto (conf : Conf Key T) (t : T) (kid : String) (pc : Pc Key) : Conf Key T :=
  { conf with lookups := Function.update conf.lookups t (some (kid, pc)) }

/-- Which event a recorded fetch leaves in the log. -/
def fetchEvent (fetched : Except TokenError (Table String Key)) (now : Nat) : Event :=
  match fetched with
  | .ok _ => .succeeded now
  | .error _ => .failed now

/-- One action, `none` where it is disabled. -/
def act (conf : Conf Key T) : Action Key T → Option (Conf Key T)
  | .call t kid =>
      match conf.lookups t with
      | none => some (conf.goto t kid .first)
      | some _ => none
  | .look t clock =>
      match conf.lookups t with
      | some (kid, .first) =>
          if conf.released ≤ clock.now then
            let (answer, keys) := inspectKeyState conf.keys kid clock
            let conf := { conf with keys, released := clock.failure }
            match answer with
            | some answer => some (conf.goto t kid (.done answer))
            | none => some (conf.goto t kid .waiting)
          else none
      | _ => none
  | .acquire t =>
      match conf.lookups t, conf.refresh with
      | some (kid, .waiting), none => some { conf.goto t kid .second with refresh := some t }
      | _, _ => none
  | .lookAgain t clock =>
      match conf.lookups t with
      | some (kid, .second) =>
          if conf.released ≤ clock.now then
            let (answer, keys) := inspectKeyState conf.keys kid clock
            let conf := { conf with keys, released := clock.failure }
            match answer with
            | some answer => some { conf.goto t kid (.done answer) with refresh := none }
            | none => some (conf.goto t kid (.starting clock.failure))
          else none
      | _ => none
  | .start t time =>
      match conf.lookups t with
      | some (kid, .starting since) =>
          if since ≤ time then
            some { conf.goto t kid (.fetching time) with log := .started time :: conf.log }
          else none
      | _ => none
  | .finish t time fetched =>
      match conf.lookups t with
      | some (kid, .fetching started) =>
          if started ≤ time then some (conf.goto t kid (.recording time fetched)) else none
      | _ => none
  | .record t now later =>
      match conf.lookups t with
      | some (kid, .recording finished fetched) =>
          if conf.released ≤ now ∧ finished ≤ now ∧ now ≤ later then
            let (answer, keys) := record conf.keys kid fetched now later
            let conf := { conf with
              keys, released := later, log := fetchEvent fetched now :: conf.log }
            some { conf.goto t kid (.done answer) with refresh := none }
          else none
      | _ => none
  | .drop t =>
      let gone := { conf with lookups := Function.update conf.lookups t none }
      match conf.lookups t with
      | some (_, .first) | some (_, .waiting) => some gone
      | some (_, .second) | some (_, .fetching _) | some (_, .recording _ _) =>
          some { gone with refresh := none }
      | _ => none

/-- The cache inspected under its mutex. -/
def Conf.inspected (conf : Conf Key T) (kid : String) (clock : Readings) : Conf Key T :=
  { conf with keys := (inspectKeyState conf.keys kid clock).2, released := clock.failure }

/-- The fetch recorded under the cache mutex. -/
def Conf.recorded (conf : Conf Key T) (kid : String)
    (fetched : Except TokenError (Table String Key)) (now later : Nat) : Conf Key T :=
  { conf with
    keys := (record conf.keys kid fetched now later).2
    released := later
    log := fetchEvent fetched now :: conf.log }

/-- Everything an action can do. -/
inductive Stepped (conf : Conf Key T) : Action Key T → Conf Key T → Prop
  | call {t : T} {kid : String} (free : conf.lookups t = none) :
      Stepped conf (.call t kid) (conf.goto t kid .first)
  | look {t : T} {kid : String} {clock : Readings} {pc : Pc Key}
      (stood : conf.lookups t = some (kid, .first)) (after : conf.released ≤ clock.now)
      (idle : ¬pc.Owns) :
      Stepped conf (.look t clock) ((conf.inspected kid clock).goto t kid pc)
  | acquire {t : T} {kid : String} (stood : conf.lookups t = some (kid, .waiting))
      (free : conf.refresh = none) :
      Stepped conf (.acquire t) { conf.goto t kid .second with refresh := some t }
  | answer {t : T} {kid : String} {clock : Readings} {pc : Pc Key}
      (stood : conf.lookups t = some (kid, .second)) (after : conf.released ≤ clock.now)
      (idle : ¬pc.Owns) :
      Stepped conf (.lookAgain t clock)
        { (conf.inspected kid clock).goto t kid pc with refresh := none }
  | leave {t : T} {kid : String} {clock : Readings}
      (stood : conf.lookups t = some (kid, .second)) (after : conf.released ≤ clock.now)
      (given : (inspectKeyState conf.keys kid clock).1 = none) :
      Stepped conf (.lookAgain t clock)
        ((conf.inspected kid clock).goto t kid (.starting clock.failure))
  | start {t : T} {kid : String} {since time : Nat}
      (stood : conf.lookups t = some (kid, .starting since)) (after : since ≤ time) :
      Stepped conf (.start t time)
        { conf.goto t kid (.fetching time) with log := .started time :: conf.log }
  | finish {t : T} {kid : String} {started time : Nat}
      {fetched : Except TokenError (Table String Key)}
      (stood : conf.lookups t = some (kid, .fetching started)) (after : started ≤ time) :
      Stepped conf (.finish t time fetched) (conf.goto t kid (.recording time fetched))
  | record {t : T} {kid : String} {finished now later : Nat}
      {fetched : Except TokenError (Table String Key)} {pc : Pc Key}
      (stood : conf.lookups t = some (kid, .recording finished fetched))
      (after : conf.released ≤ now) (upTo : now ≤ later) (idle : ¬pc.Owns) :
      Stepped conf (.record t now later)
        { (conf.recorded kid fetched now later).goto t kid pc with refresh := none }
  | drop {t : T} {kid : String} {pc : Pc Key} {refresh : Option T}
      (stood : conf.lookups t = some (kid, pc)) (owned : pc.Owns → refresh = none)
      (idle : ¬pc.Owns → refresh = conf.refresh) :
      Stepped conf (.drop t)
        { conf with lookups := Function.update conf.lookups t none, refresh }

theorem act_stepped {conf next : Conf Key T} {action : Action Key T}
    (taken : act conf action = some next) : Stepped conf action next := by
  cases action with
  | call t kid =>
      dsimp only [act] at taken
      split at taken
      · obtain rfl := Option.some.inj taken
        exact .call ‹_›
      · cases taken
  | look t clock =>
      dsimp only [act] at taken
      split at taken
      next kid stood =>
        split at taken
        next after =>
          split at taken <;> obtain rfl := Option.some.inj taken
          · exact .look stood after id
          · exact .look stood after id
        · cases taken
      · cases taken
  | acquire t =>
      dsimp only [act] at taken
      split at taken
      next kid stood free =>
        obtain rfl := Option.some.inj taken
        exact .acquire stood free
      · cases taken
  | lookAgain t clock =>
      dsimp only [act] at taken
      split at taken
      next kid stood =>
        split at taken
        next after =>
          split at taken
          · obtain rfl := Option.some.inj taken
            exact .answer stood after id
          next given =>
            obtain rfl := Option.some.inj taken
            exact .leave stood after given
        · cases taken
      · cases taken
  | start t time =>
      dsimp only [act] at taken
      split at taken
      next kid since stood =>
        split at taken
        · obtain rfl := Option.some.inj taken
          exact .start stood ‹_›
        · cases taken
      · cases taken
  | finish t time fetched =>
      dsimp only [act] at taken
      split at taken
      next kid started stood =>
        split at taken
        · obtain rfl := Option.some.inj taken
          exact .finish stood ‹_›
        · cases taken
      · cases taken
  | record t now later =>
      dsimp only [act] at taken
      split at taken
      next kid finished fetched stood =>
        split at taken
        next after =>
          obtain rfl := Option.some.inj taken
          exact .record stood after.1 after.2.2 id
        · cases taken
      · cases taken
  | drop t =>
      dsimp only [act] at taken
      split at taken <;> cases taken
      next kid stood => exact .drop stood False.elim fun _ => rfl
      next kid stood => exact .drop stood False.elim fun _ => rfl
      next kid stood => exact .drop stood (fun _ => rfl) fun idle => absurd trivial idle
      next kid started stood => exact .drop stood (fun _ => rfl) fun idle => absurd trivial idle
      next kid finished fetched stood =>
        exact .drop stood (fun _ => rfl) fun idle => absurd trivial idle

theorem lookups_goto {conf : Conf Key T} {t t' : T} {kid kid' : String} {pc pc' : Pc Key} :
    (conf.goto t kid pc).lookups t' = some (kid', pc') ↔
      t' = t ∧ kid' = kid ∧ pc' = pc ∨ t' ≠ t ∧ conf.lookups t' = some (kid', pc') := by
  unfold Conf.goto
  by_cases same : t' = t
  · subst same
    simp [eq_comm]
  · simp [same]

/-- A lookup that has moved on to where it owns nothing is not among the owners. -/
theorem lookups_idle {conf : Conf Key T} {t t' : T} {kid kid' : String} {pc pc' : Pc Key}
    (idle : ¬pc.Owns) (stood : (conf.goto t kid pc).lookups t' = some (kid', pc')) (owns : pc'.Owns) :
    t' ≠ t ∧ conf.lookups t' = some (kid', pc') := by
  obtain ⟨-, -, rfl⟩ | still := lookups_goto.1 stood
  · exact absurd owns idle
  · exact still

theorem lookups_dropped {conf : Conf Key T} {t t' : T} {kid : String} {pc : Pc Key} :
    Function.update conf.lookups t none t' = some (kid, pc) ↔
      t' ≠ t ∧ conf.lookups t' = some (kid, pc) := by
  by_cases same : t' = t
  · subst same
    simp
  · simp [same]

end Act

/-! ## Who owns the refresh mutex -/

section Owned

variable {Key T : Type} {conf next : Conf Key T}

/-- A lookup that holds the refresh mutex is the one it is held by. -/
def Owned (conf : Conf Key T) : Prop :=
  ∀ t kid pc, conf.lookups t = some (kid, pc) → pc.Owns → conf.refresh = some t

theorem Owned.unique (owned : Owned conf) {t t' : T} {kid kid' : String} {pc pc' : Pc Key}
    (stood : conf.lookups t = some (kid, pc)) (owns : pc.Owns)
    (stood' : conf.lookups t' = some (kid', pc')) (owns' : pc'.Owns) : t' = t :=
  Option.some.inj ((owned t' kid' pc' stood' owns').symm.trans (owned t kid pc stood owns))

variable [DecidableEq T] {action : Action Key T}

/-- A lookup that keeps its ownership, or has none, moves. -/
theorem Owned.goto (owned : Owned conf) {t : T} {kid : String} {pc : Pc Key}
    (kept : pc.Owns → conf.refresh = some t) : Owned (conf.goto t kid pc) := by
  intro t' kid' pc' stood owns
  obtain ⟨rfl, -, rfl⟩ | ⟨-, stood⟩ := lookups_goto.1 stood
  · exact kept owns
  · exact owned t' kid' pc' stood owns

/-- The owner gives the mutex back. -/
theorem Owned.release (owned : Owned conf) {t : T} {kid : String} {pc : Pc Key}
    (stood : conf.lookups t = some (kid, pc)) (owns : pc.Owns) {refresh : Option T}
    {after : T → Option (String × Pc Key)}
    (others : ∀ t' kid' pc', after t' = some (kid', pc') → pc'.Owns →
      t' ≠ t ∧ conf.lookups t' = some (kid', pc')) :
    Owned { conf with lookups := after, refresh } := by
  intro t' kid' pc' stood' owns'
  obtain ⟨different, stood'⟩ := others t' kid' pc' stood' owns'
  exact absurd (owned.unique stood owns stood' owns') different

theorem Owned.step (owned : Owned conf) (stepped : Stepped conf action next) : Owned next := by
  cases stepped with
  | call free => exact owned.goto False.elim
  | @look t kid clock pc stood after idle =>
      have same : Owned (conf.inspected kid clock) := owned
      exact same.goto fun owns => absurd owns idle
  | @acquire t kid stood free =>
      intro t' kid' pc' stood' owns
      obtain ⟨rfl, -⟩ | ⟨-, stood'⟩ := lookups_goto.1 stood'
      · rfl
      · have := owned t' kid' pc' stood' owns
        rw [free] at this
        cases this
  | @answer t kid clock pc stood after idle =>
      exact owned.release stood trivial fun t' kid' pc' stood' owns => lookups_idle idle stood' owns
  | @leave t kid clock stood after given =>
      have same : Owned (conf.inspected kid clock) := owned
      exact same.goto fun _ => owned t kid _ stood trivial
  | @start t kid since time stood after =>
      exact (owned.goto fun _ => owned t kid _ stood trivial : Owned (conf.goto t kid _))
  | @finish t kid started time fetched stood after =>
      exact owned.goto fun _ => owned t kid _ stood trivial
  | @record t kid finished now later fetched pc stood after upTo idle =>
      exact owned.release stood trivial fun t' kid' pc' stood' owns => lookups_idle idle stood' owns
  | @drop t kid pc refresh stood gone kept =>
      by_cases owns : pc.Owns
      · exact owned.release stood owns fun t' kid' pc' stood' _ => lookups_dropped.1 stood'
      · intro t' kid' pc' stood' owns'
        rw [kept owns]
        exact owned t' kid' pc' (lookups_dropped.1 stood').2 owns'

end Owned

/-! ## When fetches start -/

section Throttled

variable {Key T : Type}

/-- At `time` every recorded fetch lies back far enough for a new one. -/
structure Clear (log : List Event) (time : Nat) : Prop where
  succeeded : ∀ f, .succeeded f ∈ log → f + jwksRefreshInterval ≤ time
  failed : ∀ f, .failed f ∈ log → f + fetchFailureBackoff ≤ time

/-- Every fetch started clear of the fetches recorded before it. -/
def Throttled : List Event → Prop
  | [] => True
  | .started time :: past => Clear past time ∧ Throttled past
  | .succeeded _ :: past => Throttled past
  | .failed _ :: past => Throttled past

theorem Clear.started {log : List Event} {since : Nat} (clear : Clear log since) (time : Nat) :
    Clear (.started time :: log) since := by
  constructor
  · intro f inside
    obtain other | inside := List.mem_cons.1 inside
    · cases other
    · exact clear.succeeded f inside
  · intro f inside
    obtain other | inside := List.mem_cons.1 inside
    · cases other
    · exact clear.failed f inside

/-- The state still tells when the last fetches were recorded. -/
structure Dated (log : List Event) (keys : KeyState Key) (released : Nat) : Prop where
  succeeded : ∀ f, .succeeded f ∈ log → ∃ cache, keys.cache = some cache ∧ f ≤ cache.fetchedAt
  failed : ∀ f, .failed f ∈ log → (∃ g, keys.lastFailure = some g ∧ f ≤ g) ∨
    ∃ cache, keys.cache = some cache ∧ f ≤ cache.fetchedAt
  cached : ∀ cache, keys.cache = some cache → cache.fetchedAt ≤ released
  missed : ∀ g, keys.lastFailure = some g → g ≤ released

section Dated

variable {log : List Event} {keys : KeyState Key} {released : Nat} {kid : String}

theorem Dated.inspected (dated : Dated log keys released) {clock : Readings}
    (after : released ≤ clock.now) :
    Dated log (inspectKeyState keys kid clock).2 clock.failure := by
  have later : released ≤ clock.failure := by
    have := clock.now_le
    have := clock.ttl_le
    have := clock.interval_le
    omega
  refine ⟨?_, ?_, ?_, ?_⟩ <;> simp only [inspect_cache, inspect_lastFailure]
  · exact dated.succeeded
  · exact dated.failed
  · exact fun cache there => (dated.cached cache there).trans later
  · exact fun g last => (dated.missed g last).trans later

theorem Dated.started (dated : Dated log keys released) (time : Nat) :
    Dated (.started time :: log) keys released := by
  refine ⟨fun f inside => ?_, fun f inside => ?_, dated.cached, dated.missed⟩
  · obtain other | inside := List.mem_cons.1 inside
    · cases other
    · exact dated.succeeded f inside
  · obtain other | inside := List.mem_cons.1 inside
    · cases other
    · exact dated.failed f inside

/-- No recorded fetch is later than the last release of the cache mutex. -/
theorem Dated.bounds (dated : Dated log keys released) {f : Nat}
    (recorded : .succeeded f ∈ log ∨ .failed f ∈ log) : f ≤ released := by
  obtain succeeded | failed := recorded
  · obtain ⟨cache, there, le⟩ := dated.succeeded f succeeded
    exact le.trans (dated.cached cache there)
  · obtain ⟨g, last, le⟩ | ⟨cache, there, le⟩ := dated.failed f failed
    · exact le.trans (dated.missed g last)
    · exact le.trans (dated.cached cache there)

theorem Dated.recorded (dated : Dated log keys released)
    {fetched : Except TokenError (Table String Key)} {now later : Nat} (after : released ≤ now)
    (upTo : now ≤ later) :
    Dated (fetchEvent fetched now :: log) (record keys kid fetched now later).2 later := by
  have earlier : ∀ f, .succeeded f ∈ log ∨ .failed f ∈ log → f ≤ now := fun f recorded =>
    (dated.bounds recorded).trans after
  cases fetched with
  | error e =>
      refine ⟨fun f inside => ?_, fun f inside => .inl ⟨now, rfl, ?_⟩, fun cache there => ?_,
        fun g last => ?_⟩
      · obtain other | inside := List.mem_cons.1 inside
        · cases other
        · exact dated.succeeded f inside
      · obtain same | inside := List.mem_cons.1 inside
        · cases same
          exact le_rfl
        · exact earlier f (.inr inside)
      · exact (dated.cached cache there).trans (after.trans upTo)
      · obtain rfl := Option.some.inj last
        exact upTo
  | ok keys' =>
      have held := @record_ok_cache Key keys kid now later keys'
      refine ⟨fun f inside => ⟨_, held, ?_⟩, fun f inside => .inr ⟨_, held, ?_⟩,
        fun cache there => ?_, fun g last => ?_⟩
      · obtain same | inside := List.mem_cons.1 inside
        · cases same
          exact le_rfl
        · exact earlier f (.inl inside)
      · obtain other | inside := List.mem_cons.1 inside
        · cases other
        · exact earlier f (.inr inside)
      · obtain rfl := Option.some.inj (held.symm.trans there)
        exact upTo
      · rw [record_ok_lastFailure] at last
        cases last

/-- Leave to refresh comes clear of every recorded fetch. -/
theorem Dated.clear (dated : Dated log keys released) {clock : Readings}
    (given : (inspectKeyState keys kid clock).1 = none) : Clear log clock.failure := by
  obtain ⟨sinceSuccess, sinceFailure⟩ := inspect_none given
  have shorter : fetchFailureBackoff ≤ jwksRefreshInterval := by decide
  constructor
  · intro f inside
    obtain ⟨cache, there, le⟩ := dated.succeeded f inside
    have := sinceSuccess cache there
    omega
  · intro f inside
    obtain ⟨g, last, le⟩ | ⟨cache, there, le⟩ := dated.failed f inside
    · have := sinceFailure g last
      omega
    · have := sinceSuccess cache there
      omega

end Dated

/-- What keeps fetches apart. -/
structure Spaced (conf : Conf Key T) : Prop where
  dated : Dated conf.log conf.keys conf.released
  clear : ∀ t kid since, conf.lookups t = some (kid, .starting since) → Clear conf.log since
  throttled : Throttled conf.log

variable [DecidableEq T] {conf next : Conf Key T} {action : Action Key T}

/-- A lookup that does not come to `starting` leaves the others clear. -/
theorem Spaced.clear_goto (spaced : Spaced conf) {t : T} {kid : String} {pc : Pc Key}
    (elsewhere : ∀ since, pc ≠ .starting since) {t' : T} {kid' : String} {since : Nat}
    (stood : (conf.goto t kid pc).lookups t' = some (kid', .starting since)) :
    Clear conf.log since := by
  obtain ⟨-, -, same⟩ | ⟨-, stood⟩ := lookups_goto.1 stood
  · exact absurd same.symm (elsewhere since)
  · exact spaced.clear t' kid' since stood

theorem Spaced.step (owned : Owned conf) (spaced : Spaced conf) (stepped : Stepped conf action next) :
    Spaced next := by
  have idle_elsewhere : ∀ {pc : Pc Key}, ¬pc.Owns → ∀ since, pc ≠ .starting since := by
    rintro pc idle since rfl
    exact idle trivial
  cases stepped with
  | call free =>
      exact ⟨spaced.dated, fun _ _ _ => spaced.clear_goto (by simp), spaced.throttled⟩
  | look stood after idle =>
      exact ⟨spaced.dated.inspected after,
        fun _ _ _ => spaced.clear_goto (idle_elsewhere idle), spaced.throttled⟩
  | acquire stood free =>
      exact ⟨spaced.dated, fun _ _ _ => spaced.clear_goto (by simp), spaced.throttled⟩
  | answer stood after idle =>
      exact ⟨spaced.dated.inspected after,
        fun _ _ _ => spaced.clear_goto (idle_elsewhere idle), spaced.throttled⟩
  | leave stood after given =>
      refine ⟨spaced.dated.inspected after, fun t' kid' since stood' => ?_, spaced.throttled⟩
      obtain ⟨-, -, same⟩ | ⟨-, stood'⟩ := lookups_goto.1 stood'
      · cases same
        exact spaced.dated.clear given
      · exact spaced.clear t' kid' since stood'
  | @start t kid since time stood after =>
      have now_clear := spaced.clear t kid since stood
      refine ⟨?_, fun t' kid' since' stood' => ?_, ⟨?_, spaced.throttled⟩⟩
      · exact spaced.dated.started time
      · obtain ⟨-, -, other⟩ | ⟨-, stood'⟩ := lookups_goto.1 stood'
        · cases other
        · exact (spaced.clear t' kid' since' stood').started time
      · exact ⟨fun f inside => (now_clear.succeeded f inside).trans after,
          fun f inside => (now_clear.failed f inside).trans after⟩
  | finish stood after =>
      exact ⟨spaced.dated, fun _ _ _ => spaced.clear_goto (by simp), spaced.throttled⟩
  | @record t kid finished now later fetched pc stood after upTo idle =>
      refine ⟨spaced.dated.recorded after upTo, fun t' kid' since' stood' => ?_, ?_⟩
      · obtain ⟨-, -, rfl⟩ | ⟨different, stood'⟩ := lookups_goto.1 stood'
        · exact absurd trivial idle
        · -- the recorder owns the refresh mutex, so nobody else was given leave
          exact absurd (owned.unique stood trivial stood' trivial) different
      · cases fetched with
        | ok _ => exact spaced.throttled
        | error _ => exact spaced.throttled
  | @drop t kid pc refresh stood gone kept =>
      refine ⟨spaced.dated, fun t' kid' since' stood' => ?_, spaced.throttled⟩
      exact spaced.clear t' kid' since' (lookups_dropped.1 stood').2

/-- The negative cache is within its cap. -/
def Bounded (conf : Conf Key T) : Prop := size conf.keys.unknownKids ≤ unknownKidCap

theorem Bounded.step (bounded : Bounded conf) (stepped : Stepped conf action next) :
    Bounded next := by
  cases stepped with
  | look | answer | leave => exact inspect_bounded bounded
  | record => exact record_bounded bounded
  | call | acquire | start | finish | drop => exact bounded

end Throttled

/-! ## Throttling -/

/-- All readings of an inspection at once. -/
def Readings.at (time : Nat) : Readings := ⟨time, time, time, time, le_rfl, le_rfl, le_rfl⟩

/-- A lookup that refreshes at `time` and brings `keys`. -/
def refreshing (t : Nat) (kid : String) (time : Nat) (keys : Table String Nat) :
    List (Action Nat Nat) :=
  [.call t kid, .look t (.at time), .acquire t, .lookAgain t (.at time), .start t time,
    .finish t time (.ok keys), .record t time time]

section Throttling

variable {Key T : Type} [DecidableEq T]

structure Kept (conf : Conf Key T) : Prop where
  owned : Owned conf
  spaced : Spaced conf
  bounded : Bounded conf

/-- A validator that was just built. -/
theorem kept_new : Kept ({} : Conf Key T) where
  owned := nofun
  spaced := ⟨⟨nofun, nofun, nofun, nofun⟩, nofun, trivial⟩
  bounded := by
    show (0 : Nat) ≤ unknownKidCap
    exact Nat.zero_le _

theorem kept_of_play {actions : List (Action Key T)} {conf : Conf Key T}
    (ran : play act {} actions = some conf) : Kept conf :=
  have always : Every act (fun _ _ => True) ({} : Conf Key T) actions :=
    every_of_forall (fun _ _ => trivial) _ _
  play_invariant
    (fun _ _ _ kept _ taken =>
      have stepped := act_stepped taken
      ⟨kept.owned.step stepped, kept.spaced.step kept.owned stepped, kept.bounded.step stepped⟩)
    kept_new always ran

/-- Whatever lookups run, in whatever order, and however their fetches end: one fetch at a time,
each clear of those recorded before it, and a bounded negative cache. -/
theorem refresh_throttled {actions : List (Action Key T)} {conf : Conf Key T}
    (ran : play act {} actions = some conf) :
    (∀ t t' kid kid' started started',
        conf.lookups t = some (kid, .fetching started) →
        conf.lookups t' = some (kid', .fetching started') → t' = t) ∧
      Throttled conf.log ∧ size conf.keys.unknownKids ≤ unknownKidCap := by
  have kept := kept_of_play ran
  refine ⟨fun t t' kid kid' started started' here there => ?_, kept.spaced.throttled,
    kept.bounded⟩
  exact kept.owned.unique here trivial there trivial

/-- Overlapping lookups: 1 waits behind 0, whose fetch fails; 3 waits behind 2, which is dropped while
it fetches; 4 is given leave once the interval is over, and 5 waits behind it. -/
def overlapping : List (Action Nat Nat) :=
  [.call 0 "id", .call 1 "id", .look 0 (.at 0), .look 1 (.at 0), .acquire 0, .lookAgain 0 (.at 0),
    .start 0 0, .finish 0 (fromSecs 1) (.error .providerUnavailable),
    .record 0 (fromSecs 1) (fromSecs 1), .acquire 1, .lookAgain 1 (.at (fromSecs 2)),
    .call 2 "id", .call 3 "other", .look 2 (.at (fromSecs 6)), .look 3 (.at (fromSecs 6)),
    .acquire 2, .lookAgain 2 (.at (fromSecs 6)), .start 2 (fromSecs 6), .drop 2,
    .acquire 3, .lookAgain 3 (.at (fromSecs 7)), .start 3 (fromSecs 7),
    .finish 3 (fromSecs 8) (.ok ((∅ : Table String Nat).insert "other" 7)),
    .record 3 (fromSecs 8) (fromSecs 8),
    .call 4 "id", .call 5 "id", .look 4 (.at (fromSecs 38)), .look 5 (.at (fromSecs 38)),
    .acquire 4, .lookAgain 4 (.at (fromSecs 38)), .start 4 (fromSecs 38)]

/-- Lookup 1 is turned away without a fetch of its own, and the one fetch in flight is that of 4. -/
theorem refresh_throttled_overlapping : ∃ conf : Conf Nat Nat,
    play act {} overlapping = some conf ∧
      conf.log = [.started (fromSecs 38), .succeeded (fromSecs 8), .started (fromSecs 7),
        .started (fromSecs 6), .failed (fromSecs 1), .started 0] ∧
      conf.lookups 1 = some ("id", .done (.error .providerUnavailable)) ∧
      conf.lookups 5 = some ("id", .waiting) ∧
      (∀ t kid started, conf.lookups t = some (kid, .fetching started) → t = 4) ∧
      Throttled conf.log ∧ size conf.keys.unknownKids ≤ unknownKidCap := by
  have ends : (play act {} overlapping).any (fun conf =>
      conf.log = [.started (fromSecs 38), .succeeded (fromSecs 8), .started (fromSecs 7),
        .started (fromSecs 6), .failed (fromSecs 1), .started 0] ∧
      conf.lookups 1 = some ("id", .done (.error .providerUnavailable)) ∧
      conf.lookups 5 = some ("id", .waiting) ∧
      conf.lookups 4 = some ("id", .fetching (fromSecs 38))) = true := by
    decide +kernel
  obtain ⟨conf, ran, ends⟩ := (Option.any_eq_true _ _).1 ends
  obtain ⟨logged, refused, waits, fetches⟩ := of_decide_eq_true ends
  obtain ⟨one, spaced⟩ := refresh_throttled ran
  exact ⟨conf, ran, logged, refused, waits, fun t kid started there =>
    one 4 t "id" kid (fromSecs 38) started fetches there, spaced⟩

end Throttling

/-! ## Serving cached keys -/

section Served

variable {Key T : Type} [DecidableEq T] {conf next : Conf Key T} {action : Action Key T}

/-- Every lookup of an id in the fresh cache is answered with its key by its first step, which
leaves the refreshes alone. -/
def Served (conf : Conf Key T) : Prop :=
  ∀ t kid (clock : Readings) cache key,
    conf.lookups t = some (kid, .first) → conf.released ≤ clock.now →
    conf.keys.cache = some cache → clock.ttl - cache.fetchedAt < jwksTtl →
    cache.keys.lookup kid = some key →
    ∃ next, act conf (.look t clock) = some next ∧
      next.lookups t = some (kid, .done (.ok (some key))) ∧
      next.refresh = conf.refresh ∧ next.log = conf.log

/-- The key set a lookup is about to record. -/
def Conf.fetchedBy (conf : Conf Key T) (t : T) : Option (Table String Key) :=
  match conf.lookups t with
  | some (_, .recording _ (.ok keys)) => some keys
  | _ => none

/-- No id that is still remembered as absent is in the set an action records. -/
def Timely (conf : Conf Key T) : Action Key T → Prop
  | .record t _ later =>
      ∀ keys ∈ conf.fetchedBy t, ∀ e ∈ conf.keys.unknownKids.entries,
        (keys.lookup e.1).isSome → unknownKidTtl ≤ later - e.2
  | _ => True

instance Timely.decidable (conf : Conf Key T) :
    (action : Action Key T) → Decidable (Timely conf action)
  | .record t _ later =>
      inferInstanceAs (Decidable (∀ keys ∈ conf.fetchedBy t,
        ∀ e ∈ conf.keys.unknownKids.entries, (keys.lookup e.1).isSome → unknownKidTtl ≤ later - e.2))
  | .call _ _ | .look _ _ | .acquire _ | .lookAgain _ _ | .start _ _ | .finish _ _ _ | .drop _ =>
      .isTrue trivial

/-- What the cache names is no longer believed absent. -/
def Believed (conf : Conf Key T) : Prop :=
  ∀ cache kid seen, conf.keys.cache = some cache → (cache.keys.lookup kid).isSome →
    conf.keys.unknownKids.lookup kid = some seen → unknownKidTtl ≤ conf.released - seen

theorem Believed.inspected (believed : Believed conf) {kid : String} {clock : Readings}
    (after : conf.released ≤ clock.now) : Believed (conf.inspected kid clock) := by
  intro cache other seen there named remembered
  have there : conf.keys.cache = some cache := inspect_cache.symm.trans there
  obtain before | ⟨cache', there', absent⟩ := inspect_unknown remembered
  · have old := believed cache other seen there named before
    have := clock.now_le
    have := clock.ttl_le
    have := clock.interval_le
    show unknownKidTtl ≤ clock.failure - seen
    omega
  · obtain rfl := Option.some.inj (there.symm.trans there')
    rw [absent] at named
    cases named

theorem Believed.step (believed : Believed conf) (timely : Timely conf action)
    (stepped : Stepped conf action next) : Believed next := by
  cases stepped with
  | look _ after _ | answer _ after _ | leave _ after _ => exact believed.inspected after
  | @record t kid finished now later fetched pc stood after upTo idle =>
      intro cache other seen there named remembered
      cases fetched with
      | error e =>
          have old := believed cache other seen there named remembered
          show unknownKidTtl ≤ later - seen
          omega
      | ok keys =>
          obtain rfl := Option.some.inj (record_ok_cache.symm.trans there)
          obtain before | absent := record_unknown remembered
          · have fetched : keys ∈ conf.fetchedBy t := by
              rw [Conf.fetchedBy, stood]
              rfl
            exact timely keys fetched ⟨other, seen⟩ (mem_entries_iff.2 before) named
          · rw [show (KeyCache.mk keys now).keys.lookup other = none from absent] at named
            cases named
  | call | acquire | start | finish | drop => exact believed

theorem Believed.served (believed : Believed conf) : Served conf := by
  intro t kid clock cache key stood after there fresh named
  have answered := inspect_cached there fresh named fun seen remembered => by
    have old := believed cache kid seen there (by rw [named]; rfl) remembered
    omega
  refine ⟨(conf.inspected kid clock).goto t kid (.done (.ok (some key))), ?_, ?_, rfl, rfl⟩
  · simp only [act, stood, if_pos after, answered, Conf.inspected]
  · exact lookups_goto.2 (.inl ⟨rfl, rfl, rfl⟩)

/-- While no recorded set names an id that is still remembered as absent, the fresh cache serves
all its keys. -/
theorem cached_key_served {actions : List (Action Key T)} {conf : Conf Key T}
    (timely : Every act Timely {} actions) (ran : play act {} actions = some conf) :
    Served conf :=
  (play_invariant (fun _ _ _ believed met taken => believed.step met (act_stepped taken))
    (show Believed ({} : Conf Key T) from nofun) timely ran).served

/-- A second id of a set is served right after the set was recorded. -/
theorem cached_key_served_second : ∃ conf : Conf Nat Nat,
    play act {} (refreshing 0 "first" 0 (((∅ : Table String Nat).insert "first" 1).insert "next" 7) ++
      [.call 1 "next"]) = some conf ∧ conf.keys.cache.isSome ∧ Served conf := by
  have timely : Every act Timely ({} : Conf Nat Nat)
      (refreshing 0 "first" 0 (((∅ : Table String Nat).insert "first" 1).insert "next" 7) ++
        [.call 1 "next"]) := by
    decide +kernel
  have cached : (play act {}
      (refreshing 0 "first" 0 (((∅ : Table String Nat).insert "first" 1).insert "next" 7) ++
        [.call 1 "next"]) : Option (Conf Nat Nat)).any (fun conf => conf.keys.cache.isSome) =
      true := by
    decide +kernel
  obtain ⟨conf, ran, cached⟩ := (Option.any_eq_true _ _).1 cached
  exact ⟨conf, ran, cached, cached_key_served timely ran⟩

end Served

/-! ## A key rotated in -/

/-- The provider is asked at 0 s; `next` is looked up at 29 s, before the provider publishes it,
and the lookup of another id at 31 s brings its key. -/
def rotation : List (Action Nat Nat) :=
  refreshing 0 "other" 0 ∅ ++ [.call 1 "next", .look 1 (.at (fromSecs 29))] ++
    refreshing 2 "another" (fromSecs 31) ((∅ : Table String Nat).insert "next" 7) ++
    [.call 3 "next"]

/-- A lookup of `next` at 32 s finds a fresh cache with its key, and answers that there is none. -/
theorem rotated_in_key_refused :
    ¬∀ (actions : List (Action Nat Nat)) (conf : Conf Nat Nat),
      play act {} actions = some conf → Served conf := by
  intro all
  have refused : (play act {} rotation).any (fun conf =>
      conf.lookups 3 = some ("next", .first) ∧ conf.released ≤ fromSecs 32 ∧
        conf.keys.cache.any (fun cache =>
          fromSecs 32 - cache.fetchedAt < jwksTtl ∧ cache.keys.lookup "next" = some 7) ∧
        (act conf (.look 3 (.at (fromSecs 32)))).any fun next =>
          next.lookups 3 = some ("next", .done (.ok none))) = true := by
    decide +kernel
  obtain ⟨conf, ran, refused⟩ := (Option.any_eq_true _ _).1 refused
  obtain ⟨stood, after, cached, refused⟩ := of_decide_eq_true refused
  obtain ⟨cache, there, held⟩ := (Option.any_eq_true _ _).1 cached
  obtain ⟨next, taken, served, -⟩ := all rotation conf ran 3 "next" (.at (fromSecs 32)) cache 7
    stood after there (of_decide_eq_true held).1 (of_decide_eq_true held).2
  rw [taken, Option.any_some, decide_eq_true_iff, served] at refused
  cases refused

end TypstMcp.Auth
