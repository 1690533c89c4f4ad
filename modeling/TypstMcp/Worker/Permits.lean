/-
Worker.Permits -- compiles in flight

Every compile holds one of a fixed number of permits from before its worker is spawned
until after the worker is dead.  A call that finds no permit waits for one, in order,
and is turned away once it has waited long enough; a worker that outlives its deadline is
killed; a call can be dropped wherever it waits.

`act` is one action of one call, of a worker process or of the clock, so a list of
actions is a run under any interleaving.

* `permits_bound`: no permit is lost, and the workers that nobody has told to die never
  outnumber the permits.
* `ends_justified`: what a call was told when it was turned away or timed out is true, and
  no call leaves a worker running.
-/
import TypstMcp.Theory.Play
import TypstMcp.Theory.Semaphore
import TypstMcp.Worker.Run

namespace TypstMcp.Worker.Permits

open TypstMcp.Theory TypstMcp.Worker.Run

set_option autoImplicit false
set_option linter.unusedSectionVars false

/-! ## Calls -/

/-- How the parent is configured; durations are in ticks of the clock. -/
structure SpawnConfig where
  timeout : Nat
  maxConcurrent : Nat
  queueTimeout : Nat

/-- Where a call of `compile` is. -/
inductive Phase
  /-- Not yet made. -/
  | fresh
  /-- `try_acquire_owned` found no permit; the timeout is set. -/
  | tried (since : Nat)
  | queued (since : Nat)
  /-- A permit has been handed over, and not yet been seen. -/
  | granted
  | holding
  | running (since : Nat)
  /-- Past its deadline; the worker has been told to die. -/
  | killing (elapsed : Nat)
  | done (result : Except SpawnError JobResult) (elapsed : Nat)
  | dropped

namespace Phase

/-- The call has a permit. -/
def Holds : Phase → Prop
  | granted | holding | running _ | killing _ => True
  | _ => False

/-- The call is in the queue. -/
def Waits : Phase → Prop
  | queued _ => True
  | _ => False

/-- The call is over. -/
def Over : Phase → Prop
  | done .. | dropped => True
  | _ => False

theorem Holds.not_waits {phase : Phase} (holds : phase.Holds) : ¬ phase.Waits := by
  cases phase <;> first | exact id | exact holds.elim

theorem Over.not_holds {phase : Phase} (ended : phase.Over) : ¬ phase.Holds := by
  cases phase <;> first | exact id | exact ended.elim

theorem Over.not_waits {phase : Phase} (ended : phase.Over) : ¬ phase.Waits := by
  cases phase <;> first | exact id | exact ended.elim

end Phase

/-- The worker of a call. -/
inductive Process
  | running
  /-- Sent `SIGKILL`. -/
  | killed
  | gone
  deriving DecidableEq

def Process.kill : Process → Process
  | running | killed => killed
  | gone => gone

structure Call where
  phase : Phase := .fresh
  process : Option Process := none

/-- The service; `T` names the calls. -/
structure Service (T : Type) where
  now : Nat := 0
  permits : Semaphore T
  calls : T → Call := fun _ => {}

/-- How spawning a worker goes: it fails, the job has no frame, or the pump starts. -/
inductive Spawned
  | failed (message : String)
  | unsent (error : FrameError)
  | started

inductive Action (T : Type)
  | tick
  | call (t : T)
  /-- The acquiring future is polled for the first time. -/
  | poll (t : T)
  | resume (t : T)
  | expire (t : T)
  | spawn (t : T) (spawned : Spawned)
  /-- The worker process ends, by itself or killed. -/
  | exits (t : T)
  | finish (t : T) (status : ExitStatus) (out err : Bytes) (writeErr : Bool)
  /-- A pipe or the wait fails. -/
  | fails (t : T) (message : String)
  | timeout (t : T)
  | reap (t : T)
  /-- The future is dropped at an await point. -/
  | drop (t : T)

section Act

variable {T : Type} [DecidableEq T]

namespace Service

def goto (s : Service T) (t : T) (call : Call) : Service T :=
  { s with calls := Function.update s.calls t call }

def take (s : Service T) (t : T) (call : Call) : Service T :=
  { s.goto t call with permits := s.permits.take t }

def join (s : Service T) (t : T) (call : Call) : Service T :=
  { s.goto t call with permits := s.permits.join t }

def leave (s : Service T) (t : T) (call : Call) : Service T :=
  { s.goto t call with permits := s.permits.leave t }

/-- The permit is dropped, and goes to whoever has waited longest. -/
def release (s : Service T) (t : T) (call : Call) : Service T :=
  match s.permits.queue with
  | [] => { s.goto t call with permits := (s.permits.giveBack t).handOn }
  | first :: _ =>
      { (s.goto t call).goto first { s.calls first with phase := .granted } with
        permits := (s.permits.giveBack t).handOn }

@[simp] theorem goto_self (s : Service T) (t : T) (call : Call) : (s.goto t call).calls t = call :=
  Function.update_self ..

@[simp] theorem take_self (s : Service T) (t : T) (call : Call) : (s.take t call).calls t = call :=
  Function.update_self ..

@[simp] theorem join_self (s : Service T) (t : T) (call : Call) : (s.join t call).calls t = call :=
  Function.update_self ..

@[simp] theorem leave_self (s : Service T) (t : T) (call : Call) : (s.leave t call).calls t = call :=
  Function.update_self ..

end Service

/-- One action, `none` where it is disabled. -/
def act (config : SpawnConfig) (results : Codec JobResult) (s : Service T) :
    Action T → Option (Service T)
  | .tick => some { s with now := s.now + 1 }
  | .call t =>
      match (s.calls t).phase with
      | .fresh =>
          if 0 < s.permits.free then some (s.take t { s.calls t with phase := .holding })
          else some (s.goto t { s.calls t with phase := .tried s.now })
      | _ => none
  | .poll t =>
      match (s.calls t).phase with
      | .tried since =>
          if 0 < s.permits.free then some (s.take t { s.calls t with phase := .holding })
          else some (s.join t { s.calls t with phase := .queued since })
      | _ => none
  | .resume t =>
      match (s.calls t).phase with
      | .granted => some (s.goto t { s.calls t with phase := .holding })
      | _ => none
  | .expire t =>
      match (s.calls t).phase with
      | .queued since =>
          if since + config.queueTimeout ≤ s.now then
            some (s.leave t { s.calls t with
              phase := .done (.error .overloaded) (s.now - since) })
          else none
      | _ => none
  | .spawn t spawned =>
      match (s.calls t).phase, spawned with
      | .holding, .failed message =>
          some (s.release t { s.calls t with phase := .done (.error (.io (.os message))) 0 })
      | .holding, .unsent error =>
          some (s.release t ⟨.done (.error (.io (.frame error))) 0, some .killed⟩)
      | .holding, .started => some (s.goto t ⟨.running s.now, some .running⟩)
      | _, _ => none
  | .exits t =>
      match (s.calls t).process with
      | some .running | some .killed => some (s.goto t { s.calls t with process := some .gone })
      | _ => none
  | .finish t status out err writeErr =>
      match s.calls t with
      | ⟨.running since, some .gone⟩ =>
          some (s.release t
            ⟨.done (conclude results status out err writeErr) (s.now - since), some .gone⟩)
      | _ => none
  | .fails t message =>
      match s.calls t with
      | ⟨.running since, process⟩ =>
          some (s.release t
            ⟨.done (.error (.io (.os message))) (s.now - since), process.map .kill⟩)
      | _ => none
  | .timeout t =>
      match s.calls t with
      | ⟨.running since, process⟩ =>
          if since + config.timeout ≤ s.now then
            some (s.goto t ⟨.killing (s.now - since), process.map .kill⟩)
          else none
      | _ => none
  | .reap t =>
      match s.calls t with
      | ⟨.killing elapsed, some .gone⟩ =>
          some (s.release t ⟨.done (.error (.timeout config.timeout)) elapsed, some .gone⟩)
      | _ => none
  | .drop t =>
      match s.calls t with
      | ⟨.queued _, process⟩ => some (s.leave t ⟨.dropped, process⟩)
      | ⟨.granted, process⟩ => some (s.release t ⟨.dropped, process⟩)
      | ⟨.running _, process⟩ | ⟨.killing _, process⟩ =>
          some (s.release t ⟨.dropped, process.map .kill⟩)
      | _ => none

/-- A service with every permit free. -/
def start (T : Type) (config : SpawnConfig) : Service T where
  permits := { free := config.maxConcurrent }

/-- A run of the service. -/
def Runs (config : SpawnConfig) (results : Codec JobResult) (actions : List (Action T))
    (s : Service T) : Prop :=
  play (act config results) (start T config) actions = some s

/-! ## What an action does -/

/-- What holds of a call by itself: who has a worker, and when a call may end as it did. -/
def Fit (config : SpawnConfig) (now : Nat) : Phase → Option Process → Prop
  | .tried since, process => since ≤ now ∧ process = none
  | .queued since, process => since ≤ now ∧ process = none
  | .running since, process => since ≤ now ∧ (process = some .running ∨ process = some .gone)
  | .killing elapsed, process =>
      config.timeout ≤ elapsed ∧ (process = some .killed ∨ process = some .gone)
  | .done result elapsed, process =>
      process ≠ some .running ∧
        (result = .error .overloaded → config.queueTimeout ≤ elapsed ∧ process = none) ∧
        ∀ after, result = .error (.timeout after) →
          after = config.timeout ∧ after ≤ elapsed ∧ process = some .gone
  | .dropped, process => process ≠ some .running
  | _, process => process = none

theorem Fit.later {config : SpawnConfig} {now then_ : Nat} {phase : Phase} {process : Option Process}
    (fit : Fit config now phase process) (passed : now ≤ then_) : Fit config then_ phase process := by
  cases phase with
  | tried since => exact ⟨fit.1.trans passed, fit.2⟩
  | queued since => exact ⟨fit.1.trans passed, fit.2⟩
  | running since => exact ⟨fit.1.trans passed, fit.2⟩
  | _ => exact fit

/-- Where a call that was in flight when the clock read `began` may still be. -/
def InTime (config : SpawnConfig) (began now : Nat) : Phase → Prop
  | .fresh => False
  | .tried since => since ≤ began ∧ now ≤ began
  | .queued since => since ≤ began ∧ now ≤ began + config.queueTimeout
  | .granted | .holding => now ≤ began + config.queueTimeout
  | .running since => since ≤ began + config.queueTimeout ∧
      now ≤ began + config.queueTimeout + config.timeout
  | .killing _ => now ≤ began + config.queueTimeout + config.timeout
  | .done .. | .dropped => True

theorem Phase.Over.inTime {config : SpawnConfig} {began now : Nat} {phase : Phase}
    (ended : phase.Over) : InTime config began now phase := by
  cases phase <;> first | exact trivial | exact ended.elim

/-- Every action but the clock's is one of these, of one call. -/
inductive Stepped (config : SpawnConfig) (s : Service T) : Service T → Prop
  | goto (t : T) (call : Call) (holds : call.phase.Holds ↔ (s.calls t).phase.Holds)
      (waits : call.phase.Waits ↔ (s.calls t).phase.Waits)
      (inTime : ∀ began, InTime config began s.now (s.calls t).phase →
        InTime config began s.now call.phase)
      (fits : Fit config s.now (s.calls t).phase (s.calls t).process → Fit config s.now call.phase call.process) :
      Stepped config s (s.goto t call)
  | take (t : T) (available : 0 < s.permits.free) (without : ¬ (s.calls t).phase.Holds)
      (idle : ¬ (s.calls t).phase.Waits)
      (early : ∀ began, InTime config began s.now (s.calls t).phase → s.now ≤ began)
      (none_ : Fit config s.now (s.calls t).phase (s.calls t).process →
        (s.calls t).process = none) :
      Stepped config s (s.take t { s.calls t with phase := .holding })
  | join (t : T) (since : Nat) (full : s.permits.free = 0) (tried : (s.calls t).phase = .tried since) :
      Stepped config s (s.join t { s.calls t with phase := .queued since })
  | leave (t : T) (call : Call) (waits : (s.calls t).phase.Waits) (ended : call.phase.Over)
      (fits : Fit config s.now (s.calls t).phase (s.calls t).process → Fit config s.now call.phase call.process) :
      Stepped config s (s.leave t call)
  | release (t : T) (call : Call) (holds : (s.calls t).phase.Holds) (ended : call.phase.Over)
      (fits : Fit config s.now (s.calls t).phase (s.calls t).process → Fit config s.now call.phase call.process) :
      Stepped config s (s.release t call)

variable {config : SpawnConfig} {results : Codec JobResult} {s s' : Service T} {t : T}

/-- A worker that has ended is not reported as a call turned away or timed out. -/
theorem conclude_ne (status : ExitStatus) (out err : Bytes) (writeErr : Bool) :
    conclude results status out err writeErr ≠ .error .overloaded ∧
      ∀ after, conclude results status out err writeErr ≠ .error (.timeout after) := by
  unfold conclude
  split
  · exact ⟨by simp, by simp⟩
  · split
    · exact ⟨by simp, by simp⟩
    · split <;> exact ⟨by simp, by simp⟩

theorem kill_ne (process : Option Process) : process.map Process.kill ≠ some .running := by
  rcases process with - | - | - | - <;> simp [Process.kill]

theorem act_stepped {action : Action T} (moves : action ≠ .tick)
    (taken : act config results s action = some s') : Stepped config s s' := by
  cases action with
  | tick => exact absurd rfl moves
  | call t =>
      simp only [act] at taken
      split at taken
      · rename_i fresh
        split at taken
        · rename_i available
          obtain rfl := Option.some.inj taken
          exact .take t available (by simp [fresh, Phase.Holds]) (by simp [fresh, Phase.Waits])
            (by simp [fresh, InTime]) (by simp [fresh, Fit])
        · obtain rfl := Option.some.inj taken
          exact .goto t _ (by simp [fresh, Phase.Holds]) (by simp [fresh, Phase.Waits])
            (by simp [fresh, InTime]) (by simp [fresh, Fit])
      · cases taken
  | poll t =>
      simp only [act] at taken
      split at taken
      · rename_i since tried
        split at taken
        · rename_i available
          obtain rfl := Option.some.inj taken
          exact .take t available (by simp [tried, Phase.Holds]) (by simp [tried, Phase.Waits])
            (by simp [tried, InTime]) (by simp [tried, Fit])
        · obtain rfl := Option.some.inj taken
          exact .join t since (by omega) tried
      · cases taken
  | resume t =>
      simp only [act] at taken
      split at taken
      · rename_i granted
        obtain rfl := Option.some.inj taken
        exact .goto t _ (by simp [granted, Phase.Holds]) (by simp [granted, Phase.Waits])
          (by simp [granted, InTime]) (by simp [granted, Fit])
      · cases taken
  | expire t =>
      simp only [act] at taken
      split at taken
      · rename_i since queued
        split at taken
        · rename_i late
          obtain rfl := Option.some.inj taken
          refine .leave t _ (by simp [queued, Phase.Waits]) trivial ?_
          rw [queued]
          rintro ⟨-, idle⟩
          exact ⟨by simp [idle], fun _ => ⟨by omega, idle⟩, by simp⟩
        · cases taken
      · cases taken
  | spawn t spawned =>
      simp only [act] at taken
      split at taken
      · rename_i message holding
        obtain rfl := Option.some.inj taken
        refine .release t _ (by simp [holding, Phase.Holds]) trivial ?_
        rw [holding]
        intro idle
        exact ⟨by simp [show _ = _ from idle], by simp, by simp⟩
      · rename_i error holding
        obtain rfl := Option.some.inj taken
        exact .release t _ (by simp [holding, Phase.Holds]) trivial (by simp [Fit])
      · rename_i holding
        obtain rfl := Option.some.inj taken
        exact .goto t _ (by simp [holding, Phase.Holds]) (by simp [holding, Phase.Waits])
          (by simp [holding, InTime]; omega) (by simp [Fit])
      · cases taken
  | exits t =>
      simp only [act] at taken
      have gone : (s' = s.goto t { s.calls t with process := some .gone }) ∧
          ((s.calls t).process = some .running ∨ (s.calls t).process = some .killed) := by
        split at taken
        · rename_i runs
          exact ⟨(Option.some.inj taken).symm, .inl runs⟩
        · rename_i killed
          exact ⟨(Option.some.inj taken).symm, .inr killed⟩
        · cases taken
      obtain ⟨rfl, lives⟩ := gone
      refine .goto t _ Iff.rfl Iff.rfl (fun _ => id) ?_
      cases phase : (s.calls t).phase <;> rcases lives with lives | lives <;> simp_all [Fit]
  | finish t status out err writeErr =>
      simp only [act] at taken
      split at taken
      · rename_i since running
        obtain rfl := Option.some.inj taken
        refine .release t _ (by simp [running, Phase.Holds]) trivial fun _ => ?_
        obtain ⟨in_, after⟩ := @conclude_ne results status out err writeErr
        exact ⟨by simp, fun same => absurd same in_, fun d same => absurd same (after d)⟩
      · cases taken
  | fails t message =>
      simp only [act] at taken
      split at taken
      · rename_i since process running
        obtain rfl := Option.some.inj taken
        exact .release t _ (by simp [running, Phase.Holds]) trivial fun _ =>
          ⟨kill_ne process, by simp, by simp⟩
      · cases taken
  | timeout t =>
      simp only [act] at taken
      split at taken
      · rename_i since process running
        split at taken
        · rename_i late
          obtain rfl := Option.some.inj taken
          refine .goto t _ (by simp [running, Phase.Holds]) (by simp [running, Phase.Waits])
            (by simp [running, InTime]) ?_
          rw [running]
          rintro ⟨-, rfl | rfl⟩
          · exact ⟨by omega, .inl rfl⟩
          · exact ⟨by omega, .inr rfl⟩
        · cases taken
      · cases taken
  | reap t =>
      simp only [act] at taken
      split at taken
      · rename_i elapsed killing
        obtain rfl := Option.some.inj taken
        refine .release t _ (by simp [killing, Phase.Holds]) trivial ?_
        rw [killing]
        rintro ⟨late, -⟩
        refine ⟨by simp, by simp, ?_⟩
        rintro after same
        obtain rfl : config.timeout = after := by simpa using same
        exact ⟨rfl, late, rfl⟩
      · cases taken
  | drop t =>
      simp only [act] at taken
      split at taken
      · rename_i since process queued
        obtain rfl := Option.some.inj taken
        refine .leave t _ (by simp [queued, Phase.Waits]) trivial ?_
        rw [queued]
        rintro ⟨-, idle⟩
        simp [Fit, show process = none from idle]
      · rename_i process granted
        obtain rfl := Option.some.inj taken
        refine .release t _ (by simp [granted, Phase.Holds]) trivial ?_
        rw [granted]
        exact fun idle => by simp [Fit, show process = none from idle]
      · rename_i since process running
        obtain rfl := Option.some.inj taken
        exact .release t _ (by simp [running, Phase.Holds]) trivial fun _ => kill_ne process
      · rename_i elapsed process killing
        obtain rfl := Option.some.inj taken
        exact .release t _ (by simp [killing, Phase.Holds]) trivial fun _ => kill_ne process
      · cases taken

/-! ## What every action keeps -/

/-- The semaphore and a call agree. -/
structure Agrees (config : SpawnConfig) (now : Nat) (permits : Semaphore T) (t : T) (call : Call) :
    Prop where
  held : t ∈ permits.held ↔ call.phase.Holds
  queue : t ∈ permits.queue ↔ call.phase.Waits
  fit : Fit config now call.phase call.process

structure Sound (config : SpawnConfig) (s : Service T) : Prop where
  permits : s.permits.Sound config.maxConcurrent 0
  agrees : ∀ t, Agrees config s.now s.permits t (s.calls t)

theorem sound_start : Sound config (start T config) where
  permits := Semaphore.sound_new config.maxConcurrent
  agrees t :=
    { held := iff_of_false (Finset.notMem_empty t) id
      queue := iff_of_false List.not_mem_nil id
      fit := rfl }

/-- What holds of the call that moved and of every other one. -/
theorem agrees_update {now : Nat} {permits : Semaphore T} {calls : T → Call} {call : Call}
    (here : Agrees config now permits t call) (others : ∀ u, u ≠ t → Agrees config now permits u (calls u)) :
    ∀ u, Agrees config now permits u (Function.update calls t call u) :=
  (Function.forall_update_iff calls fun u call => Agrees config now permits u call).2 ⟨here, others⟩

theorem Sound.goto (sound : Sound config s) {call : Call}
    (holds : call.phase.Holds ↔ (s.calls t).phase.Holds)
    (waits : call.phase.Waits ↔ (s.calls t).phase.Waits)
    (fits : Fit config s.now call.phase call.process) : Sound config (s.goto t call) where
  permits := sound.permits
  agrees := by
    obtain ⟨held, queue, -⟩ := sound.agrees t
    exact agrees_update ⟨held.trans holds.symm, queue.trans waits.symm, fits⟩
      fun u _ => sound.agrees u

theorem Sound.take (sound : Sound config s) (available : 0 < s.permits.free)
    (without : ¬ (s.calls t).phase.Holds) (idle : ¬ (s.calls t).phase.Waits)
    (none_ : (s.calls t).process = none) :
    Sound config (s.take t { s.calls t with phase := .holding }) where
  permits := sound.permits.take available fun holds => without ((sound.agrees t).held.1 holds)
  agrees := by
    refine agrees_update ⟨iff_of_true (Finset.mem_insert_self t _) trivial,
      iff_of_false (fun waits => idle ((sound.agrees t).queue.1 waits)) id, none_⟩ ?_
    intro u other
    obtain ⟨held, queue, fit⟩ := sound.agrees u
    exact ⟨Finset.mem_insert.trans ((or_iff_right other).trans held), queue, fit⟩

theorem Sound.join (sound : Sound config s) {since : Nat} (full : s.permits.free = 0)
    (tried : (s.calls t).phase = .tried since) :
    Sound config (s.join t { s.calls t with phase := .queued since }) := by
  obtain ⟨held, queue, fit⟩ := sound.agrees t
  rw [tried] at held queue fit
  refine ⟨sound.permits.join full held.1 queue.1, ?_⟩
  refine agrees_update ⟨iff_of_false held.1 id,
    iff_of_true (List.mem_append_right _ (List.mem_singleton_self t)) trivial, fit⟩ ?_
  intro u other
  obtain ⟨held, queue, fit⟩ := sound.agrees u
  have last : u ∉ [t] := fun inside => other (List.mem_singleton.1 inside)
  exact ⟨held, List.mem_append.trans ((or_iff_left last).trans queue), fit⟩

theorem Sound.leave (sound : Sound config s) {call : Call} (waits : (s.calls t).phase.Waits)
    (ended : call.phase.Over) (fits : Fit config s.now call.phase call.process) :
    Sound config (s.leave t call) where
  permits := sound.permits.leave
  agrees := by
    have idle : t ∉ s.permits.held := fun holds => ((sound.agrees t).held.1 holds).not_waits waits
    refine agrees_update ⟨iff_of_false idle ended.not_holds,
      iff_of_false sound.permits.nodup.not_mem_erase ended.not_waits, fits⟩ ?_
    intro u other
    obtain ⟨held, queue, fit⟩ := sound.agrees u
    exact ⟨held, (List.mem_erase_of_ne other).trans queue, fit⟩

/-- With its permit given back, what is left of the call that had it and of the others. -/
theorem Sound.gives_back (sound : Sound config s) {call : Call} (holds : (s.calls t).phase.Holds)
    (ended : call.phase.Over) (fits : Fit config s.now call.phase call.process) (u : T) :
    Agrees config s.now (s.permits.giveBack t) u (Function.update s.calls t call u) := by
  have waits : t ∉ s.permits.queue := fun waits => holds.not_waits ((sound.agrees t).queue.1 waits)
  have here : Agrees config s.now (s.permits.giveBack t) t call :=
    ⟨iff_of_false (Finset.notMem_erase t _) ended.not_holds,
      iff_of_false waits ended.not_waits, fits⟩
  refine agrees_update here ?_ u
  intro u other
  obtain ⟨held, queue, fit⟩ := sound.agrees u
  exact ⟨Finset.mem_erase.trans ((and_iff_right other).trans held), queue, fit⟩

theorem Sound.release (sound : Sound config s) {call : Call} (holds : (s.calls t).phase.Holds)
    (ended : call.phase.Over) (fits : Fit config s.now call.phase call.process) :
    Sound config (s.release t call) := by
  have given := sound.gives_back holds ended fits
  have permits := (sound.permits.giveBack ((sound.agrees t).held.2 holds)).handOn
  unfold Service.release
  cases waiting : s.permits.queue with
  | nil =>
      have freed : (s.permits.giveBack t).handOn =
          { s.permits.giveBack t with free := s.permits.free + 1 } := by
        simp [Semaphore.handOn, Semaphore.giveBack, waiting]
      refine ⟨permits, fun u => ?_⟩
      obtain ⟨held, queue, fit⟩ := given u
      rw [freed]
      exact ⟨held, queue, fit⟩
  | cons first rest =>
      have handed : (s.permits.giveBack t).handOn = { s.permits.giveBack t with
          queue := rest
          held := insert first (s.permits.held.erase t) } := by
        simp [Semaphore.handOn, Semaphore.giveBack, waiting]
      have alone := List.nodup_cons.1 (waiting ▸ sound.permits.nodup)
      obtain ⟨-, queue, fit⟩ := sound.agrees first
      have waits : (s.calls first).phase.Waits := queue.1 (waiting ▸ List.mem_cons_self)
      have idle : (s.calls first).process = none := by
        cases phase : (s.calls first).phase with
        | queued since =>
            rw [phase] at fit
            exact fit.2
        | _ =>
            rw [phase] at waits
            exact waits.elim
      refine ⟨permits, ?_⟩
      rw [handed]
      refine agrees_update ⟨iff_of_true (Finset.mem_insert_self first _) trivial,
        iff_of_false alone.1 id, idle⟩ ?_
      intro u other
      obtain ⟨held, queue, fit⟩ := given u
      refine ⟨Finset.mem_insert.trans ((or_iff_right other).trans held), ?_, fit⟩
      have behind : u ∈ s.permits.queue ↔ u ∈ rest := by
        rw [waiting, List.mem_cons, or_iff_right other]
      exact behind.symm.trans queue

theorem Sound.tick (sound : Sound config s) : Sound config { s with now := s.now + 1 } := by
  refine ⟨sound.permits, fun t => ?_⟩
  obtain ⟨held, queue, fit⟩ := sound.agrees t
  exact ⟨held, queue, fit.later (Nat.le_add_right _ _)⟩

theorem Stepped.sound (stepped : Stepped config s s') (sound : Sound config s) : Sound config s' := by
  cases stepped with
  | goto t call holds waits inTime fits =>
      exact sound.goto holds waits (fits (sound.agrees t).fit)
  | take t available without idle early none_ =>
      exact sound.take available without idle (none_ (sound.agrees t).fit)
  | join t since full tried => exact sound.join full tried
  | leave t call waits ended fits => exact sound.leave waits ended (fits (sound.agrees t).fit)
  | release t call holds ended fits => exact sound.release holds ended (fits (sound.agrees t).fit)

theorem act_sound {action : Action T} (sound : Sound config s)
    (taken : act config results s action = some s') : Sound config s' := by
  rcases eq_or_ne action .tick with rfl | moves
  · exact Option.some.inj taken ▸ sound.tick
  · exact (act_stepped moves taken).sound sound

/-- Every state of every run is sound. -/
theorem Runs.sound {actions : List (Action T)} (runs : Runs config results actions s) :
    Sound config s :=
  play_invariant (fun _ _ _ sound _ taken => act_sound sound taken) sound_start
    (every_of_forall (fun _ _ => trivial) _ actions) runs

/-! ## Permits and workers -/

/-- **No permit is lost,** none is free while a call waits, the workers nobody has told to die never
outnumber the permits, and once every call is over every permit is free. -/
theorem permits_bound {actions : List (Action T)} (runs : Runs config results actions s) :
    s.permits.free + s.permits.held.card = config.maxConcurrent ∧
    (∀ t since, (s.calls t).phase = .queued since → s.permits.free = 0) ∧
    (∀ workers : Finset T, (∀ t ∈ workers, (s.calls t).process = some .running) →
      workers.card ≤ config.maxConcurrent) ∧
    ((∀ t, (s.calls t).phase = .fresh ∨ (s.calls t).phase.Over) →
      s.permits.free = config.maxConcurrent) := by
  have sound := runs.sound
  have whole : s.permits.free + s.permits.held.card = config.maxConcurrent :=
    sound.permits.conserved
  refine ⟨whole, fun t since queued => ?_, fun workers alive => ?_, fun ended => ?_⟩
  · by_contra some_
    have waits := (sound.agrees t).queue.2 (by rw [queued]; trivial)
    rw [sound.permits.fair (Nat.pos_of_ne_zero some_)] at waits
    cases waits
  · have owned : workers ⊆ s.permits.held := by
      intro t inside
      obtain ⟨held, -, fit⟩ := sound.agrees t
      rw [alive t inside] at fit
      rw [held]
      cases phase : (s.calls t).phase with
      | running since => trivial
      | _ =>
          rw [phase] at fit
          simp [Fit] at fit
    have fewer := Finset.card_le_card owned
    omega
  · have none_ : s.permits.held = ∅ := by
      refine Finset.eq_empty_of_forall_notMem fun t inside => ?_
      have holds := (sound.agrees t).held.1 inside
      rcases ended t with fresh | past
      · rw [fresh] at holds
        exact holds
      · exact past.not_holds holds
    rw [none_, Finset.card_empty] at whole
    exact whole

/-- **What a call is told is true.**  It was turned away after the whole queue timeout, and nothing was
spawned for it; it timed out after the whole deadline, and its worker is dead; and whatever became
of it, it leaves no worker that has not been told to die. -/
theorem ends_justified {actions : List (Action T)} (runs : Runs config results actions s) (t : T) :
    (∀ elapsed, (s.calls t).phase = .done (.error .overloaded) elapsed →
      config.queueTimeout ≤ elapsed ∧ (s.calls t).process = none) ∧
    (∀ after elapsed, (s.calls t).phase = .done (.error (.timeout after)) elapsed →
      after = config.timeout ∧ after ≤ elapsed ∧ (s.calls t).process = some .gone) ∧
    ((s.calls t).phase.Over → (s.calls t).process ≠ some .running) := by
  have fit := (runs.sound.agrees t).fit
  refine ⟨fun elapsed ended => ?_, fun after elapsed ended => ?_, fun ended => ?_⟩
  · rw [ended] at fit
    exact fit.2.1 rfl
  · rw [ended] at fit
    exact fit.2.2 after rfl
  · cases phase : (s.calls t).phase with
    | done result elapsed =>
        rw [phase] at fit
        exact fit.1
    | dropped =>
        rw [phase] at fit
        exact fit
    | _ =>
        rw [phase] at ended
        exact ended.elim

end Act

/-! ## Three calls for one permit -/

open TypstMcp.Worker.Pipe (internalCodec)

/-- One worker at a time. -/
def single : SpawnConfig := ⟨2, 1, 1⟩

/-- The first call has its worker; the two behind it wait. -/
def crowded : List (Action Nat) :=
  [.call 0, .spawn 0 .started, .call 1, .call 2, .poll 1, .poll 2]

/-- And the clock moves on: the second call is turned away and the first one is killed. -/
def late : List (Action Nat) :=
  crowded ++ [.tick, .expire 1, .tick, .timeout 0, .exits 0, .reap 0]

theorem permits_bound_crowded : ∃ s, Runs single internalCodec crowded s ∧
    (s.calls 0).process = some .running ∧ ∀ workers : Finset Nat,
      (∀ t ∈ workers, (s.calls t).process = some .running) → workers.card ≤ 1 := by
  have runs : Runs single internalCodec crowded _ := rfl
  exact ⟨_, runs, rfl, (permits_bound runs).2.2.1⟩

theorem ends_justified_late : ∃ s, Runs single internalCodec late s ∧
    (s.calls 1).phase = .done (.error .overloaded) 1 ∧ (s.calls 1).process = none ∧
    (s.calls 0).phase = .done (.error (.timeout 2)) 2 ∧ (s.calls 0).process = some .gone := by
  have runs : Runs single internalCodec late _ := rfl
  exact ⟨_, runs, rfl, ((ends_justified runs 1).1 1 rfl).2, rfl,
    ((ends_justified runs 0).2.1 2 2 rfl).2.2⟩

end TypstMcp.Worker.Permits
