/-
Auth.Dropped -- lookups that are dropped while they fetch

What throttles the provider is written when a fetch is recorded, and the refresh
mutex is given back when a lookup ends, however it ends.  A lookup that is dropped
between the start of its fetch and the record of it leaves nothing behind.

* `starts_apart`: while no lookup is dropped there, any two fetches start at least
  `fetchFailureBackoff` apart.
* `bursts_start`: otherwise any number of fetches can start at one instant.
-/
import TypstMcp.Auth.Lookup

namespace TypstMcp.Auth

open TypstMcp.Theory TypstMcp.Theory.Table

set_option autoImplicit false
set_option linter.unusedSectionVars false

/-- Any two fetches started far enough apart. -/
def Apart : List Event → Prop
  | [] => True
  | .started time :: past =>
      (∀ s, .started s ∈ past → s + fetchFailureBackoff ≤ time) ∧ Apart past
  | .succeeded _ :: past => Apart past
  | .failed _ :: past => Apart past

/-- A fetch is under way that started at `s` or later, or its outcome is not yet recorded. -/
inductive Pc.Since {Key : Type} (s : Nat) : Pc Key → Prop
  | fetching {started : Nat} (after : s ≤ started) : Since s (.fetching started)
  | recording {finished : Nat} {fetched : Except TokenError (Table String Key)}
      (after : s ≤ finished) : Since s (.recording finished fetched)

theorem Pc.Since.owns {Key : Type} {s : Nat} {pc : Pc Key} (since : pc.Since s) : pc.Owns := by
  cases since <;> trivial

/-- The provider is being asked, or its answer is not yet recorded. -/
def Pc.Fetches {Key : Type} : Pc Key → Bool
  | .fetching _ | .recording _ _ => true
  | _ => false

section Spacing

variable {Key T : Type} {conf next : Conf Key T}

/-- The lookup that is dropped is not one whose fetch is under way or unrecorded. -/
def Unharmed (conf : Conf Key T) : Action Key T → Prop
  | .drop t => (conf.lookups t).all (fun lookup => !lookup.2.Fetches) = true
  | _ => True

instance Unharmed.decidable (conf : Conf Key T) :
    (action : Action Key T) → Decidable (Unharmed conf action)
  | .drop _ => inferInstanceAs (Decidable (_ = true))
  | .call _ _ | .look _ _ | .acquire _ | .lookAgain _ _ | .start _ _ | .finish _ _ _
  | .record _ _ _ => .isTrue trivial

/-- Every fetch that started is under way, or an outcome was recorded after it. -/
def Accounted (conf : Conf Key T) : Prop :=
  ∀ s, .started s ∈ conf.log →
    (∃ f, s ≤ f ∧ (.succeeded f ∈ conf.log ∨ .failed f ∈ conf.log)) ∨
      ∃ t kid pc, conf.lookups t = some (kid, pc) ∧ pc.Since s

variable [DecidableEq T] {action : Action Key T}

/-- A lookup moves whose fetch, if it has one, goes on. -/
theorem Accounted.goto (accounted : Accounted conf) {t : T} {kid : String} {pc : Pc Key}
    (logged : next.log = conf.log) (lookups : next.lookups = (conf.goto t kid pc).lookups)
    (kept : ∀ kid pc' s, conf.lookups t = some (kid, pc') → pc'.Since s → pc.Since s) :
    Accounted next := by
  intro s started
  rw [logged] at started ⊢
  refine (accounted s started).imp id ?_
  rintro ⟨t', kid', pc', stood, since⟩
  rw [lookups]
  by_cases same : t' = t
  · subst same
    exact ⟨t', kid, pc, lookups_goto.2 (.inl ⟨rfl, rfl, rfl⟩), kept kid' pc' s stood since⟩
  · exact ⟨t', kid', pc', lookups_goto.2 (.inr ⟨same, stood⟩), since⟩

/-- A fetch is recorded once it is over. -/
theorem record_finished {t : T} {kid : String} {finished now later : Nat}
    {fetched : Except TokenError (Table String Key)}
    (stood : conf.lookups t = some (kid, .recording finished fetched))
    (taken : act conf (.record t now later) = some next) :
    finished ≤ now ∧ next.log = fetchEvent fetched now :: conf.log := by
  dsimp only [act] at taken
  rw [stood] at taken
  simp only at taken
  split_ifs at taken with ordered
  obtain rfl := Option.some.inj taken
  exact ⟨ordered.2.1, rfl⟩

theorem Accounted.step (owned : Owned conf) (accounted : Accounted conf)
    (unharmed : Unharmed conf action) (taken : act conf action = some next) : Accounted next := by
  have stepped := act_stepped taken
  -- a lookup that stands elsewhere has no fetch to go on
  have elsewhere : ∀ {t : T} {kid : String} {pc : Pc Key} (pc' : Pc Key),
      conf.lookups t = some (kid, pc) → (∀ s, ¬ pc.Since s) →
      ∀ kid' old s, conf.lookups t = some (kid', old) → old.Since s → pc'.Since s := by
    intro t kid pc pc' stood none_ kid' old s stood' since
    obtain ⟨-, rfl⟩ := Prod.mk.inj (Option.some.inj (stood'.symm.trans stood))
    exact absurd since (none_ s)
  cases stepped with
  | call free =>
      refine accounted.goto rfl rfl fun _ _ _ stood _ => ?_
      rw [free] at stood
      cases stood
  | look stood after idle => exact accounted.goto rfl rfl (elsewhere _ stood nofun)
  | acquire stood free => exact accounted.goto rfl rfl (elsewhere _ stood nofun)
  | answer stood after idle => exact accounted.goto rfl rfl (elsewhere _ stood nofun)
  | leave stood after given => exact accounted.goto rfl rfl (elsewhere _ stood nofun)
  | @start t kid since time stood after =>
      intro s started
      obtain same | earlier := List.mem_cons.1 started
      · obtain rfl := Event.started.inj same
        exact .inr ⟨t, kid, _, lookups_goto.2 (.inl ⟨rfl, rfl, rfl⟩), .fetching le_rfl⟩
      · obtain ⟨f, le, recorded⟩ | ⟨t', kid', pc, stood', since'⟩ := accounted s earlier
        · exact .inl ⟨f, le, recorded.imp (.tail _) (.tail _)⟩
        · obtain rfl := owned.unique stood trivial stood' since'.owns
          rw [stood] at stood'
          obtain ⟨rfl, rfl⟩ := Prod.mk.inj (Option.some.inj stood')
          cases since'
  | @finish t kid started time fetched stood after =>
      refine accounted.goto rfl rfl fun kid' old s stood' since => ?_
      obtain ⟨-, rfl⟩ := Prod.mk.inj (Option.some.inj (stood'.symm.trans stood))
      cases since with
      | fetching before => exact .recording (before.trans after)
  | @record t kid finished now later fetched pc stood after upTo idle =>
      obtain ⟨ended, -⟩ := record_finished stood taken
      intro s started
      have recorded : .succeeded now ∈ fetchEvent fetched now :: conf.log ∨
          .failed now ∈ fetchEvent fetched now :: conf.log := by
        cases fetched with
        | ok keys => exact .inl (.head _)
        | error e => exact .inr (.head _)
      have earlier : .started s ∈ conf.log := by
        obtain other | earlier := List.mem_cons.1 started
        · cases fetched <;> cases other
        · exact earlier
      obtain ⟨f, le, before⟩ | ⟨t', kid', pc', stood', since⟩ := accounted s earlier
      · exact .inl ⟨f, le, before.imp (.tail _) (.tail _)⟩
      · -- only the recorder has a fetch
        obtain rfl := owned.unique stood trivial stood' since.owns
        rw [stood] at stood'
        obtain ⟨rfl, rfl⟩ := Prod.mk.inj (Option.some.inj stood')
        cases since with
        | recording le => exact .inl ⟨now, le.trans ended, recorded⟩
  | @drop t kid pc refresh stood gone kept =>
      intro s started
      refine (accounted s started).imp id ?_
      rintro ⟨t', kid', pc', stood', since⟩
      refine ⟨t', kid', pc', lookups_dropped.2 ⟨?_, stood'⟩, since⟩
      rintro rfl
      have met : (conf.lookups t').all (fun lookup => !lookup.2.Fetches) = true := unharmed
      rw [stood'] at met
      cases since <;> cases met

/-- What keeps starts apart, along a run that drops no fetch. -/
structure Parted (conf : Conf Key T) : Prop where
  owned : Owned conf
  spaced : Spaced conf
  accounted : Accounted conf
  apart : Apart conf.log

theorem Parted.step (parted : Parted conf) (unharmed : Unharmed conf action)
    (taken : act conf action = some next) : Parted next := by
  have stepped := act_stepped taken
  refine ⟨parted.owned.step stepped, parted.spaced.step parted.owned stepped,
    parted.accounted.step parted.owned unharmed taken, ?_⟩
  cases stepped with
  | @start t kid since time stood after =>
      refine ⟨fun s started => ?_, parted.apart⟩
      have clear := parted.spaced.clear t kid since stood
      have shorter : fetchFailureBackoff ≤ jwksRefreshInterval := by decide
      obtain ⟨f, le, succeeded | failed⟩ | ⟨t', kid', pc, stood', since'⟩ :=
        parted.accounted s started
      · have := clear.succeeded f succeeded
        omega
      · have := clear.failed f failed
        omega
      · obtain rfl := parted.owned.unique stood trivial stood' since'.owns
        rw [stood] at stood'
        obtain ⟨rfl, rfl⟩ := Prod.mk.inj (Option.some.inj stood')
        cases since'
  | @record t kid finished now later fetched pc stood after upTo idle =>
      cases fetched <;> exact parted.apart
  | call | look | acquire | answer | leave | finish | drop => exact parted.apart

/-- **Fetches start apart**, in every run in which no lookup is dropped between the start of its
fetch and the record of it. -/
theorem starts_apart {actions : List (Action Key T)} {conf : Conf Key T}
    (unharmed : Every act Unharmed {} actions) (ran : play act {} actions = some conf) :
    Apart conf.log :=
  (play_invariant (fun _ _ _ parted met taken => Parted.step parted met taken)
    (show Parted ({} : Conf Key T) from ⟨kept_new.owned, kept_new.spaced, nofun, trivial⟩)
    unharmed ran).apart

/-- A lookup that fetches at 0 s, one that is dropped while it waits for the mutex, and one that
fetches a minute later. -/
def patient : List (Action Nat Nat) :=
  [.call 5 "id", .look 5 (.at 0)] ++ refreshing 0 "id" 0 ∅ ++ [.drop 5] ++
    refreshing 1 "id" (fromSecs 60) ∅

theorem starts_apart_patient : ∃ conf : Conf Nat Nat, play act {} patient = some conf ∧
    conf.log.length = 4 ∧ Apart conf.log := by
  have unharmed : Every act Unharmed ({} : Conf Nat Nat) patient := by decide +kernel
  obtain ⟨conf, ran, four⟩ := (Option.any_eq_true (fun conf : Conf Nat Nat =>
    conf.log.length = 4) _).1 (show (play act {} patient).any _ = true by decide +kernel)
  exact ⟨conf, ran, of_decide_eq_true four, starts_apart unharmed ran⟩

end Spacing

/-! ## Dropped at once -/

section Burst

variable {T : Type} [DecidableEq T]

/-- A lookup that is dropped as soon as it fetches. -/
def dropped (t : T) (kid : String) (time : Nat) : List (Action Nat T) :=
  [.call t kid, .look t (.at time), .acquire t, .lookAgain t (.at time), .start t time, .drop t]

/-- A validator that has recorded nothing, whatever has started. -/
def Fresh (conf : Conf Nat T) (time : Nat) : Prop :=
  conf.keys = {} ∧ conf.released ≤ time ∧ conf.refresh = none ∧ conf.lookups = fun _ => none

/-- Nothing recorded, the next lookup is given leave. -/
theorem inspect_new (kid : String) (time : Nat) :
    inspectKeyState ({} : KeyState Nat) kid (.at time) = (none, {}) := rfl

@[simp] theorem readings_at_now (time : Nat) : (Readings.at time).now = time := rfl

@[simp] theorem readings_at_failure (time : Nat) : (Readings.at time).failure = time := rfl

/-- A fetch that is dropped leaves the validator as it was. -/
theorem dropped_fresh {conf : Conf Nat T} {time : Nat} (fresh : Fresh conf time) (t : T)
    (kid : String) :
    ∃ next, play act conf (dropped t kid time) = some next ∧ Fresh next time ∧
      next.log = .started time :: conf.log := by
  obtain ⟨keys, released, refresh, lookups, log⟩ := conf
  obtain ⟨rfl, after, rfl, rfl⟩ : _ ∧ _ := fresh
  have after : released ≤ time := after
  refine ⟨⟨{}, time, none, fun _ => none, .started time :: log⟩, ?_, ⟨rfl, le_rfl, rfl, rfl⟩, rfl⟩
  simp [dropped, play, act, Conf.goto, inspect_new, after]

/-- **Any number of fetches starts at one instant**, whatever ids are asked for, when each lookup
is dropped as soon as it fetches. -/
theorem bursts_start (t : T) (time : Nat) (kids : List String) :
    ∃ conf : Conf Nat T, play act {} (kids.flatMap fun kid => dropped t kid time) = some conf ∧
      conf.log = List.replicate kids.length (.started time) := by
  have from_fresh : ∀ conf : Conf Nat T, Fresh conf time → ∃ last,
      play act conf (kids.flatMap fun kid => dropped t kid time) = some last ∧
        last.log = List.replicate kids.length (.started time) ++ conf.log := by
    induction kids with
    | nil => exact fun conf _ => ⟨conf, rfl, rfl⟩
    | cons kid rest ih =>
        intro conf fresh
        obtain ⟨next, ran, fresh, logged⟩ := dropped_fresh fresh t kid
        obtain ⟨last, later, more⟩ := ih next fresh
        refine ⟨last, ?_, ?_⟩
        · rw [List.flatMap_cons, play_append, ran]
          exact later
        · rw [more, logged, List.length_cons, List.replicate_succ', List.append_assoc]
          rfl
  obtain ⟨last, ran, logged⟩ := from_fresh {} ⟨rfl, Nat.zero_le _, rfl, rfl⟩
  exact ⟨last, ran, by simpa using logged⟩

/-- Two lookups dropped at once: two fetches at 0 s. -/
theorem starts_not_apart :
    ¬∀ (actions : List (Action Nat Nat)) (conf : Conf Nat Nat),
      play act {} actions = some conf → Apart conf.log := by
  intro all
  obtain ⟨conf, ran, logged⟩ := bursts_start 0 0 ["first", "second"]
  have apart := all _ conf ran
  rw [logged] at apart
  exact absurd (apart.1 0 (.head _)) (by decide)

end Burst

end TypstMcp.Auth
