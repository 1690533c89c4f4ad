/-
Worker.Prompt -- a call of compile is over in time

Time passes for a call only where nothing is left for it to do: it is polled where it was
woken, its timers fire when they are due, and a worker it has killed dies.  Of the other
calls, of the workers and of the clients nothing is asked.

`InTime` says where a call may still be at a time, and every action of anyone keeps it.

* `returns_in_time`: once the clock is past its two timeouts the call is over, and its own
  actions always come to an end that lets the clock move on.
-/
import TypstMcp.Worker.Permits

namespace TypstMcp.Worker.Permits

open TypstMcp.Theory TypstMcp.Worker.Run
open TypstMcp.Worker.Pipe (internalCodec)

set_option autoImplicit false
set_option linter.unusedSectionVars false

section Act

variable {T : Type} [DecidableEq T] {config : SpawnConfig} {results : Codec JobResult}
  {s s' : Service T} {t : T}

/-! ## Prompt runs -/

/-- What a call does by itself as soon as it can: it is polled where it was woken, its timers fire when
they are due, and a worker it has killed dies. -/
def Urgent (t : T) (s : Service T) : Action T → Prop
  | .poll u | .resume u | .expire u | .spawn u _ | .timeout u | .reap u => u = t
  | .exits u => u = t ∧ ∃ elapsed, (s.calls t).phase = .killing elapsed
  | _ => False

/-- Nothing is left for the call to do at this time. -/
def Settled (config : SpawnConfig) (results : Codec JobResult) (t : T) (s : Service T) : Prop :=
  ∀ action, Urgent t s action → act config results s action = none

/-- The clock moves on only where the call is settled; nobody else is asked anything. -/
def Prompt (config : SpawnConfig) (results : Codec JobResult) (t : T) (s : Service T) :
    Action T → Prop
  | .tick => Settled config results t s
  | _ => True

/-- Where a settled call is. -/
def Waiting (config : SpawnConfig) (now : Nat) (call : Call) : Prop :=
  match call.phase with
  | .tried _ | .granted | .holding => False
  | .queued since => now < since + config.queueTimeout
  | .running since => now < since + config.timeout
  | .killing _ => call.process = none
  | .fresh | .done .. | .dropped => True

theorem Settled.waiting (settled : Settled config results t s) :
    Waiting config s.now (s.calls t) := by
  obtain ⟨phase, process, here⟩ : ∃ phase process, s.calls t = ⟨phase, process⟩ := ⟨_, _, rfl⟩
  rw [here]
  cases phase with
  | tried since =>
      have still := settled (.poll t) rfl
      simp only [act, here] at still
      split at still <;> cases still
  | queued since =>
      have still := settled (.expire t) rfl
      simp only [act, here] at still
      split at still
      · cases still
      · exact Nat.lt_of_not_le ‹_›
  | granted =>
      have still := settled (.resume t) rfl
      simp only [act, here] at still
      cases still
  | holding =>
      have still := settled (.spawn t .started) rfl
      simp only [act, here] at still
      cases still
  | running since =>
      have still := settled (.timeout t) rfl
      simp only [act, here] at still
      split at still
      · cases still
      · exact Nat.lt_of_not_le ‹_›
  | killing elapsed =>
      have alive := settled (.exits t) ⟨rfl, elapsed, by rw [here]⟩
      have dead := settled (.reap t) rfl
      rcases process with - | - | - | -
      · rfl
      · simp only [act, here] at alive
        cases alive
      · simp only [act, here] at alive
        cases alive
      · simp only [act, here] at dead
        cases dead
  | fresh => trivial
  | done result elapsed => trivial
  | dropped => trivial

theorem Waiting.settled (waiting : Waiting config s.now (s.calls t)) :
    Settled config results t s := by
  obtain ⟨phase, process, here⟩ : ∃ phase process, s.calls t = ⟨phase, process⟩ := ⟨_, _, rfl⟩
  rw [here] at waiting
  intro action urgent
  cases action with
  | poll u | resume u | reap u =>
      obtain rfl : u = t := urgent
      cases phase <;> simp_all [act, Waiting]
  | expire u | timeout u =>
      obtain rfl : u = t := urgent
      cases phase <;> simp_all [act, Waiting]
  | spawn u spawned =>
      obtain rfl : u = t := urgent
      cases phase <;> cases spawned <;> simp_all [act, Waiting]
  | exits u =>
      obtain ⟨rfl, elapsed, killing⟩ := urgent
      obtain rfl : phase = .killing elapsed := by rw [← killing, here]
      have none_ : process = none := waiting
      simp [act, here, none_]
  | _ => exact urgent.elim

theorem settled_iff : Settled config results t s ↔ Waiting config s.now (s.calls t) :=
  ⟨Settled.waiting, Waiting.settled⟩

instance (now : Nat) (call : Call) : Decidable (Waiting config now call) := by
  unfold Waiting
  split <;> infer_instance

instance (action : Action T) : Decidable (Prompt config results t s action) :=
  match action with
  | .tick => decidable_of_iff _ settled_iff.symm
  | .call _ | .poll _ | .resume _ | .expire _ | .spawn .. | .exits _ | .finish .. | .fails ..
  | .timeout _ | .reap _ | .drop _ => .isTrue trivial

variable {began : Nat}

/-- A call in flight is in time, to begin with. -/
theorem inTime_now {now : Nat} {phase : Phase} {process : Option Process}
    (fit : Fit config now phase process) (made : phase ≠ .fresh) : InTime config now now phase := by
  cases phase with
  | fresh => exact made rfl
  | tried since => exact ⟨fit.1, Nat.le_refl _⟩
  | queued since => exact ⟨fit.1, Nat.le_add_right _ _⟩
  | granted => exact Nat.le_add_right _ _
  | holding => exact Nat.le_add_right _ _
  | running since => exact ⟨fit.1.trans (Nat.le_add_right _ _), by omega⟩
  | killing elapsed => show now ≤ _; omega
  | done result elapsed => trivial
  | dropped => trivial

/-- The clock moves on past no deadline of a settled call. -/
theorem Waiting.inTime {now : Nat} {call : Call} (waiting : Waiting config now call)
    (fit : Fit config now call.phase call.process) (inTime : InTime config began now call.phase) :
    InTime config began (now + 1) call.phase := by
  obtain ⟨phase, process⟩ := call
  cases phase with
  | fresh => exact inTime
  | tried since => exact waiting.elim
  | queued since =>
      have early : now < since + config.queueTimeout := waiting
      exact ⟨inTime.1, by have := inTime.1; omega⟩
  | granted => exact waiting.elim
  | holding => exact waiting.elim
  | running since =>
      have early : now < since + config.timeout := waiting
      exact ⟨inTime.1, by have := inTime.1; omega⟩
  | killing elapsed =>
      -- its worker was killed, so it dies and is reaped before
      have none_ : process = none := waiting
      rcases fit.2 with killed | gone
      · exact absurd (none_.symm.trans killed) nofun
      · exact absurd (none_.symm.trans gone) nofun
  | done result elapsed => trivial
  | dropped => trivial

/-- A permit handed on comes before the queue timeout. -/
theorem inTime_granted {now : Nat} {phase : Phase} (waits : phase.Waits)
    (inTime : InTime config began now phase) : InTime config began now .granted := by
  cases phase <;> first | exact inTime.2 | exact waits.elim

theorem release_now (s : Service T) (t : T) (call : Call) : (s.release t call).now = s.now := by
  unfold Service.release
  split <;> rfl

theorem Sound.release_inTime (sound : Sound config s) {u : T} {call : Call} (ended : call.phase.Over)
    (inTime : InTime config began s.now (s.calls t).phase) :
    InTime config began s.now ((s.release u call).calls t).phase := by
  have gone : InTime config began s.now (Function.update s.calls u call t).phase := by
    by_cases same : t = u
    · subst same
      rw [Function.update_self]
      exact ended.inTime
    · rwa [Function.update_of_ne same]
  unfold Service.release
  cases waiting : s.permits.queue with
  | nil => exact gone
  | cons first rest =>
      show InTime config began s.now
        (Function.update (Function.update s.calls u call) first _ t).phase
      by_cases same : t = first
      · subst same
        rw [Function.update_self]
        exact inTime_granted ((sound.agrees t).queue.1 (waiting ▸ List.mem_cons_self)) inTime
      · rwa [Function.update_of_ne same]

/-- What any call does leaves this one in time. -/
theorem Stepped.inTime (stepped : Stepped config s s') (sound : Sound config s)
    (inTime : InTime config began s.now (s.calls t).phase) :
    InTime config began s'.now (s'.calls t).phase := by
  have updated : ∀ {u : T} {call : Call}, (t = u → InTime config began s.now call.phase) →
      InTime config began s.now (Function.update s.calls u call t).phase := by
    intro u call here
    by_cases same : t = u
    · subst same
      rw [Function.update_self]
      exact here rfl
    · rwa [Function.update_of_ne same]
  cases stepped with
  | goto u call holds waits kept fits => exact updated fun same => kept began (same ▸ inTime)
  | take u available without idle early none_ =>
      refine updated fun same => ?_
      have now : s.now ≤ began := early began (same ▸ inTime)
      show s.now ≤ _
      omega
  | join u since full tried =>
      refine updated fun same => ?_
      rw [same, tried] at inTime
      exact ⟨inTime.1, inTime.2.trans (Nat.le_add_right _ _)⟩
  | leave u call waits ended fits => exact updated fun _ => ended.inTime
  | release u call holds ended fits =>
      rw [release_now]
      exact sound.release_inTime ended inTime

theorem act_inTime {action : Action T} (sound : Sound config s)
    (prompt : Prompt config results t s action)
    (inTime : InTime config began s.now (s.calls t).phase)
    (taken : act config results s action = some s') :
    InTime config began s'.now (s'.calls t).phase := by
  rcases eq_or_ne action .tick with rfl | moves
  · obtain rfl := Option.some.inj taken
    exact (Settled.waiting prompt).inTime (sound.agrees t).fit inTime
  · exact (act_stepped moves taken).inTime sound inTime

/-- Along every prompt run the call stays in time. -/
theorem play_inTime {actions : List (Action T)} (sound : Sound config s)
    (inTime : InTime config began s.now (s.calls t).phase)
    (prompt : Every (act config results) (Prompt config results t) s actions)
    (ran : play (act config results) s actions = some s') :
    Sound config s' ∧ InTime config began s'.now (s'.calls t).phase := by
  have kept : ∀ c a next, Sound config c ∧ InTime config began c.now (c.calls t).phase →
      Prompt config results t c a → act config results c a = some next →
      Sound config next ∧ InTime config began next.now (next.calls t).phase :=
    fun _ _ _ held prompt taken =>
      ⟨act_sound held.1 taken, act_inTime held.1 prompt held.2 taken⟩
  exact play_invariant kept ⟨sound, inTime⟩ prompt ran

/-! ## The clock is never kept waiting -/

/-- By its own urgent actions the call comes to where nothing is left for it to do. -/
def Settles (config : SpawnConfig) (results : Codec JobResult) (t : T) (s : Service T) : Prop :=
  ∃ own last, Every (act config results) (Urgent t) s own ∧
    play (act config results) s own = some last ∧ Settled config results t last

theorem Settles.here (waiting : Waiting config s.now (s.calls t)) : Settles config results t s :=
  ⟨[], s, trivial, rfl, waiting.settled⟩

theorem Settles.before {action : Action T} (urgent : Urgent t s action)
    (taken : act config results s action = some s') (settles : Settles config results t s') :
    Settles config results t s := by
  obtain ⟨own, last, every, ran, settled⟩ := settles
  refine ⟨action :: own, last, ⟨urgent, fun next same => ?_⟩, ?_, settled⟩
  · rw [taken] at same
    exact Option.some.inj same ▸ every
  · rw [play, taken]
    exact ran

theorem release_self (sound : Sound config s) (holds : (s.calls t).phase.Holds) (call : Call) :
    (s.release t call).calls t = call := by
  unfold Service.release
  cases waiting : s.permits.queue with
  | nil => exact Function.update_self ..
  | cons first rest =>
      have apart : t ≠ first := by
        rintro rfl
        exact holds.not_waits ((sound.agrees t).queue.1 (waiting ▸ List.mem_cons_self))
      show Function.update (Function.update s.calls t call) first _ t = call
      rw [Function.update_of_ne apart, Function.update_self]

theorem settles_killing (sound : Sound config s) {elapsed : Nat} {process : Option Process}
    (killing : s.calls t = ⟨.killing elapsed, process⟩) : Settles config results t s := by
  have reaps : ∀ {s : Service T}, Sound config s → s.calls t = ⟨.killing elapsed, some .gone⟩ →
      Settles config results t s := by
    intro s sound gone
    have self := release_self sound (by rw [gone]; trivial)
      ⟨.done (.error (.timeout config.timeout)) elapsed, some .gone⟩
    have taken : act config results s (.reap t) = some (s.release t
        ⟨.done (.error (.timeout config.timeout)) elapsed, some .gone⟩) := by
      simp only [act, gone]
    exact Settles.before (show Urgent t _ (.reap t) from rfl) taken
      (Settles.here (by rw [self]; trivial))
  have fit := (sound.agrees t).fit
  rw [killing] at fit
  obtain ⟨-, rfl | rfl⟩ := fit
  · have taken : act config results s (.exits t) =
        some (s.goto t ⟨.killing elapsed, some .gone⟩) := by
      simp [act, killing]
    refine Settles.before (show Urgent t s (.exits t) from ⟨rfl, elapsed, by rw [killing]⟩) taken ?_
    exact reaps (act_sound sound taken) (Service.goto_self ..)
  · exact reaps sound killing

theorem settles_running (sound : Sound config s) {since : Nat} {process : Option Process}
    (running : s.calls t = ⟨.running since, process⟩) : Settles config results t s := by
  by_cases late : since + config.timeout ≤ s.now
  · have taken : act config results s (.timeout t) =
        some (s.goto t ⟨.killing (s.now - since), process.map .kill⟩) := by
      simp only [act, running, if_pos late]
    refine Settles.before (show Urgent t s (.timeout t) from rfl) taken ?_
    exact settles_killing (act_sound sound taken) (Service.goto_self ..)
  · refine Settles.here ?_
    rw [running]
    exact Nat.lt_of_not_le late

theorem settles_holding (sound : Sound config s) (holding : (s.calls t).phase = .holding) :
    Settles config results t s := by
  have taken : act config results s (.spawn t .started) =
      some (s.goto t ⟨.running s.now, some .running⟩) := by
    simp only [act, holding]
  refine Settles.before (show Urgent t s (.spawn t .started) from rfl) taken ?_
  exact settles_running (act_sound sound taken) (Service.goto_self ..)

theorem settles_queued {since : Nat} (queued : (s.calls t).phase = .queued since) :
    Settles config results t s := by
  by_cases late : since + config.queueTimeout ≤ s.now
  · have taken : act config results s (.expire t) = some (s.leave t { s.calls t with
        phase := .done (.error .overloaded) (s.now - since) }) := by
      simp only [act, queued, if_pos late]
    refine Settles.before (show Urgent t s (.expire t) from rfl) taken (Settles.here ?_)
    rw [Service.leave_self]
    trivial
  · refine Settles.here ?_
    unfold Waiting
    rw [queued]
    exact Nat.lt_of_not_le late

/-- From every sound state. -/
theorem settles (sound : Sound config s) (t : T) : Settles config results t s := by
  cases phase : (s.calls t).phase with
  | fresh => exact Settles.here (by unfold Waiting; rw [phase]; trivial)
  | tried since =>
      by_cases available : 0 < s.permits.free
      · have taken : act config results s (.poll t) =
            some (s.take t { s.calls t with phase := .holding }) := by
          simp only [act, phase, if_pos available]
        refine Settles.before (show Urgent t s (.poll t) from rfl) taken ?_
        exact settles_holding (act_sound sound taken) (by simp)
      · have taken : act config results s (.poll t) =
            some (s.join t { s.calls t with phase := .queued since }) := by
          simp only [act, phase, if_neg available]
        refine Settles.before (show Urgent t s (.poll t) from rfl) taken ?_
        exact settles_queued (congrArg Call.phase (Service.join_self ..))
  | queued since => exact settles_queued phase
  | granted =>
      have taken : act config results s (.resume t) =
          some (s.goto t { s.calls t with phase := .holding }) := by
        simp only [act, phase]
      refine Settles.before (show Urgent t s (.resume t) from rfl) taken ?_
      exact settles_holding (act_sound sound taken) (by simp)
  | holding => exact settles_holding sound phase
  | running since =>
      exact settles_running sound (show s.calls t = ⟨.running since, (s.calls t).process⟩ by
        rw [← phase])
  | killing elapsed =>
      exact settles_killing sound (show s.calls t = ⟨.killing elapsed, (s.calls t).process⟩ by
        rw [← phase])
  | done result elapsed => exact Settles.here (by unfold Waiting; rw [phase]; trivial)
  | dropped => exact Settles.here (by unfold Waiting; rw [phase]; trivial)

/-- **A call returns in time.**  From any state of any run with the call in flight, and whatever every
other call, every worker and every client does from there: as long as the clock moves on only
where the call is settled, the call is over once the clock is past its two timeouts.  And the
clock is never kept waiting: the call's own urgent actions settle it. -/
theorem returns_in_time {actions more : List (Action T)} (runs : Runs config results actions s) (t : T)
    (made : (s.calls t).phase ≠ .fresh)
    (prompt : Every (act config results) (Prompt config results t) s more)
    (ran : play (act config results) s more = some s') :
    (s.now + config.queueTimeout + config.timeout < s'.now → (s'.calls t).phase.Over) ∧
    Settles config results t s' := by
  obtain ⟨sound, inTime⟩ := play_inTime runs.sound (inTime_now (runs.sound.agrees t).fit made)
    prompt ran
  refine ⟨fun late => ?_, settles sound t⟩
  cases phase : (s'.calls t).phase with
  | done result elapsed => trivial
  | dropped => trivial
  | fresh =>
      rw [phase] at inTime
      exact inTime.elim
  | tried since | queued since | running since =>
      rw [phase] at inTime
      have := inTime.2
      omega
  | granted | holding | killing elapsed =>
      rw [phase] at inTime
      have within : s'.now ≤ _ := inTime
      omega

end Act

/-! ## A permit handed on -/

/-- Or the first worker fails and the second call has its permit, and a worker that does not end. -/
def handed : List (Action Nat) :=
  [.fails 0 "broken pipe", .resume 1, .spawn 1 .started, .tick, .expire 2, .exits 0, .tick, .timeout 1,
    .exits 1, .reap 1, .tick, .tick]

theorem returns_in_time_handed : ∃ s s', Runs single internalCodec crowded s ∧
    play (act single internalCodec) s handed = some s' ∧ (s.calls 1).phase = .queued 0 ∧
    s'.now = 4 ∧ (s'.calls 1).phase.Over ∧ Settles single internalCodec 1 s' := by
  have runs : Runs single internalCodec crowded
    ((play (act single internalCodec) (start Nat single) crowded).get rfl) := rfl
  have ran : play (act single internalCodec)
    ((play (act single internalCodec) (start Nat single) crowded).get rfl) handed = some _ := rfl
  obtain ⟨ended, settles⟩ := returns_in_time runs 1 (fun fresh => by cases fresh) (by decide) ran
  exact ⟨_, _, runs, ran, rfl, rfl, ended (by decide), settles⟩

end TypstMcp.Worker.Permits
