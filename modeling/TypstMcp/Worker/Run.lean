/-
Worker.Run -- one job through a worker process

The worker reads one frame from its standard input, runs the job, and writes one frame
to its standard output; whatever it has to say goes to its standard error.  The parent
sends the job and collects both streams at once, and then makes of the exit status and
of what was collected either a result or the reason why there is none.

* `pump_completes`: whatever the pipes hold and however the two are scheduled, the pump
  neither deadlocks nor goes on for ever.
* `compile_is_execute`: what the parent concludes is what running the job in the parent
  itself would have come to, or names how the worker died.
-/
import TypstMcp.Auth.Principal
import TypstMcp.Render.Compiled
import TypstMcp.Theory.Duplex
import TypstMcp.Theory.FormUrl
import TypstMcp.Worker.Pipe

namespace TypstMcp.Worker.Run

open TypstMcp.Theory TypstMcp.Theory.Json TypstMcp.Theory.Duplex TypstMcp.Theory.FormUrl
open TypstMcp.Worker TypstMcp.Bundle
open TypstMcp.Auth (trim)

set_option autoImplicit false

/-! ## The worker as a process -/

/-- The streams a worker writes. -/
inductive Out
  | stdout
  | stderr
  deriving DecidableEq, Repr

theorem out_complete (out : Out) : out ∈ ({.stdout, .stderr} : Finset Out) := by
  cases out <;> simp

instance : Fintype Out where
  elems := {.stdout, .stderr}
  complete := out_complete

/-- How a process ended. -/
inductive ExitStatus
  | code (code : Nat)
  | signal
  deriving DecidableEq, Repr

/-- What running a job came to, with what was said on the way: a result, or the end of the process
(a panic, which aborts it, or an allocation past the limit). -/
inductive Ran
  | finished (result : JobResult) (said : Bytes)
  | died (status : ExitStatus) (said : Bytes)

/-- What the worker does apart from its streams. -/
inductive Own
  | setrlimit (bytes : Nat)
  | execute (job : Job)

@[reducible] def OwnReply : Own → Type
  | .setrlimit _ => Except String Unit
  | .execute _ => Ran

abbrev Process (α : Type) := Child UInt8 Out OwnReply α

abbrev perform (c : Duplex.Call UInt8 Own Out) : Process (Duplex.Reply OwnReply c) := Prog.perform c

/-- The file system as the worker's calls leave it; `dies` says of which jobs the process may die. -/
def own {F : Type} [F32 F] (typst : Typst F) (dies : FileTree → Job → Prop) :
    (w : Own) → FileTree → OwnReply w → FileTree → Prop
  | .setrlimit _, t, _, t' => t' = t
  | .execute job, t, .finished result _, t' => execute typst t job = (result, t')
  | .execute job, t, .died _ _, _ => dies t job

/-! ## The worker's streams -/

/-- The capacity of the buffer behind `io::stdin()`. -/
def bufferBytes : Nat := 8 * 1024

/-- `read_exact` on the buffered standard input; `held` is what has been read and not returned.
Each turn reads a byte at least, so `count` turns are enough. -/
def readExact (count : Nat) : Nat → Bytes →
    Process (Except FrameError {bytes : Bytes // bytes.length = count} × Bytes)
  | turns, held =>
      if enough : count ≤ held.length then
        return (.ok ⟨held.take count, List.length_take_of_le enough⟩, held.drop count)
      else
        match turns with
        | 0 => return (.error .unexpectedEof, held)
        | turns + 1 => do
            let chunk ← perform (.read (max (count - held.length) bufferBytes))
            if chunk.isEmpty then return (.error .unexpectedEof, [])
            else readExact count turns (held ++ chunk)

/-- `write_all`: what was not written is written next. -/
def writeAll (out : Out) : Nat → Bytes → Process (Except FrameError Unit)
  | turns, bytes =>
      if bytes.isEmpty then return .ok ()
      else
        match turns with
        | 0 => return .error (.invalidData "failed to write whole buffer")
        | turns + 1 => do
            let written ← perform (.write out bytes)
            if written = 0 then return .error (.invalidData "failed to write whole buffer")
            else writeAll out turns (bytes.drop written)

/-- The calls of a frame, made on the worker's own streams. -/
def stream : (c : Pipe.Call) → Bytes → Process (Pipe.Reply c × Bytes)
  | .writeAll bytes, held => do return (← writeAll .stdout bytes.length bytes, held)
  | .flush, held => return (.ok (), held)
  | .readExact count, held => readExact count count held
  | .allocate _, held => return ((), held)

/-- `eprintln!`. -/
def say (line : String) : Process Unit := do
  let text := utf8 (line ++ "\n")
  let _ ← writeAll .stderr text.length text

/-- `Display` of an error of the frame. -/
def frameText : FrameError → String
  | .invalidData message => message
  | .unexpectedEof => "failed to fill whole buffer"

/-- Cap the worker's address space, as far as the platform lets it. -/
def applyMemoryLimit (bytes : Nat) : Process Unit :=
  if bytes = 0 then return ()
  else do
    match ← perform (.own (.setrlimit bytes)) with
    | .ok () => return ()
    | .error err => say ("worker: could not set RLIMIT_AS to " ++ toString bytes ++ ": " ++ err)

/-- The end of `run`: the result is written. -/
def writeResult (results : Codec JobResult) (result : JobResult) (held : Bytes) :
    Process ExitStatus := do
  match ← (Pipe.writeFrame results result).via stream held with
  | (.error err, _) =>
      say ("worker: could not write result: " ++ frameText err)
      return .code 3
  | (.ok (), _) => return .code 0

/-- The middle of `run`: the job is run under its memory limit. -/
def runJob (results : Codec JobResult) (job : Job) (held : Bytes) : Process ExitStatus := do
  applyMemoryLimit job.limits.memoryBytes
  match ← perform (.own (.execute job)) with
  | .died status said =>
      let _ ← writeAll .stderr said.length said
      return status
  | .finished result said =>
      let _ ← writeAll .stderr said.length said
      writeResult results result held

/-- Read one job, run it, write one result. -/
def run (jobs : Codec Job) (results : Codec JobResult) : Process ExitStatus := do
  match ← (Pipe.readFrame jobs).via stream [] with
  | (.error err, _) =>
      say ("worker: could not read job: " ++ frameText err)
      return .code 2
  | (.ok job, held) => runJob results job held

/-! ## The parent's conclusion -/

/-- The I/O errors of a compile: the frame, a worker that left before it was sent its job, or
another call that failed. -/
inductive IoError
  | frame (error : FrameError)
  | brokenPipe
  | os (message : String)
  deriving DecidableEq, Repr

/-- Why a compile never produced a result frame; a duration is in nanoseconds. -/
inductive SpawnError
  | timeout (after : Nat)
  | overloaded
  | died (exit stderr : String)
  | io (error : IoError)
  deriving DecidableEq, Repr

def describe : ExitStatus → String
  | .code code => "exit code " ++ toString code
  | .signal => "killed by signal"

/-- What `compile` makes of a worker that has ended: its exit status, what was collected of its two
streams, and whether its job could not be written. -/
def conclude (results : Codec JobResult) (status : ExitStatus) (out err : Bytes) (writeErr : Bool) :
    Except SpawnError JobResult :=
  if status ≠ .code 0 ∨ out.isEmpty then
    .error (.died (describe status) (trim (fromUtf8Lossy err)))
  else if writeErr then .error (.io .brokenPipe)
  else
    match readFrame results out with
    | .ok (result, _) => .ok result
    | .error error => .error (.io (.frame error))

/-! ## The worker alone -/

section Alone

variable {F : Type} [F32 F] {typst : Typst F} {dies : FileTree → Job → Prop} {ends : Bool}

/-- All that went on is that something was said. -/
structure OnlySaid (s s' : Streams UInt8 Out FileTree) : Prop where
  own : s'.own = s.own
  input : s'.input = s.input
  stdout : s'.written .stdout = s.written .stdout

theorem OnlySaid.trans {s s' s'' : Streams UInt8 Out FileTree} (first : OnlySaid s s')
    (rest : OnlySaid s' s'') : OnlySaid s s'' :=
  ⟨rest.own.trans first.own, rest.input.trans first.input, rest.stdout.trans first.stdout⟩

theorem readExact_ensures {count turns : Nat} {held : Bytes} {s : Streams UInt8 Out FileTree}
    (there : count ≤ (held ++ s.input).length) (enough : count - held.length ≤ turns) :
    (readExact count turns held).Ensures (answers (own typst dies) ends) (fun made s' =>
      made.1 = .ok ⟨(held ++ s.input).take count, List.length_take_of_le there⟩ ∧
        made.2 ++ s'.input = (held ++ s.input).drop count ∧ s' = { s with input := s'.input }) s := by
  induction turns generalizing held s with
  | zero =>
      have full : count ≤ held.length := by omega
      unfold readExact
      rw [dif_pos full]
      refine ⟨?_, (List.drop_append_of_le_length full).symm, rfl⟩
      simp only [List.take_append_of_le_length full]
  | succ turns ih =>
      unfold readExact
      by_cases full : count ≤ held.length
      · rw [dif_pos full]
        refine ⟨?_, (List.drop_append_of_le_length full).symm, rfl⟩
        simp only [List.take_append_of_le_length full]
      · rw [dif_neg full]
        have most : 0 < max (count - held.length) bufferBytes := by
          have : bufferBytes = 8192 := rfl
          omega
        rw [List.length_append] at there
        refine ⟨?_, ?_⟩
        · obtain ⟨b, rest, waiting⟩ : ∃ b rest, s.input = b :: rest := by
            cases waiting : s.input with
            | nil =>
                rw [waiting, List.length_nil] at there
                omega
            | cons b rest => exact ⟨b, rest, rfl⟩
          exact ⟨[b], _, .inl ⟨by simp, most, rest, waiting, rfl⟩⟩
        · rintro chunk s' (⟨some_, -, rest, waiting, rfl⟩ | ⟨rfl, none_ | ⟨-, none_⟩, rfl⟩)
          · have more : 0 < chunk.length := List.length_pos_iff.2 some_
            have kept : (held ++ chunk) ++ rest = held ++ s.input := by
              rw [waiting, List.append_assoc]
            show (if chunk.isEmpty then _ else _ : Process _).Ensures _ _ _
            rw [if_neg (by rw [List.isEmpty_iff]; exact some_)]
            refine (ih (by rw [kept, List.length_append]; exact there) ?_).mono ?_
            · rw [List.length_append]
              omega
            · rintro made s'' ⟨got, left, same⟩
              refine ⟨?_, ?_, ?_⟩
              · rw [got]
                simp only [kept]
              · rw [left]
                simp only [kept]
              · rw [same]
          · omega
          · rw [none_, List.length_nil] at there
            omega

theorem writeAll_ensures {out : Out} {turns : Nat} {bytes : Bytes} {s : Streams UInt8 Out FileTree}
    (enough : bytes.length ≤ turns) :
    (writeAll out turns bytes).Ensures (answers (own typst dies) ends) (fun made s' =>
      made = .ok () ∧ s' = { s with
        written := Function.update s.written out (s.written out ++ bytes) }) s := by
  induction turns generalizing bytes s with
  | zero =>
      obtain rfl := List.length_eq_zero_iff.1 (Nat.le_zero.1 enough)
      refine ⟨rfl, ?_⟩
      rw [List.append_nil, Function.update_eq_self]
  | succ turns ih =>
      unfold writeAll
      cases bytes with
      | nil =>
          refine ⟨rfl, ?_⟩
          rw [List.append_nil, Function.update_eq_self]
      | cons b rest =>
          refine ⟨⟨1, _, by simp, .inl Nat.one_pos, rfl⟩, ?_⟩
          rintro (count : Nat) s' ⟨within, some_, rfl⟩
          have positive : 0 < count := some_.resolve_right (by simp)
          show (if count = 0 then _ else _ : Process _).Ensures _ _ _
          rw [if_neg (Nat.ne_of_gt positive)]
          refine (ih ?_).mono ?_
          · rw [List.length_drop]
            omega
          · rintro made s'' ⟨wrote, rfl⟩
            refine ⟨wrote, ?_⟩
            simp only [Function.update_self, Function.update_idem, List.append_assoc,
              List.take_append_drop]

theorem stderr_ensures {turns : Nat} {bytes : Bytes} {s : Streams UInt8 Out FileTree}
    (enough : bytes.length ≤ turns) :
    (writeAll .stderr turns bytes).Ensures (answers (own typst dies) ends)
      (fun _ s' => OnlySaid s s') s := by
  refine (writeAll_ensures enough).mono ?_
  rintro _ s' ⟨-, rfl⟩
  have apart : Out.stdout ≠ .stderr := by decide
  refine ⟨rfl, rfl, ?_⟩
  show Function.update s.written .stderr (s.written .stderr ++ bytes) .stdout = _
  rw [Function.update_of_ne apart]

theorem say_ensures (line : String) (s : Streams UInt8 Out FileTree) :
    (say line).Ensures (answers (own typst dies) ends) (fun _ s' => OnlySaid s s') s :=
  Prog.ensures_bind.2 ((stderr_ensures le_rfl).mono fun _ _ said => said)

theorem applyMemoryLimit_ensures (bytes : Nat) (s : Streams UInt8 Out FileTree) :
    (applyMemoryLimit bytes).Ensures (answers (own typst dies) ends) (fun _ s' => OnlySaid s s') s := by
  unfold applyMemoryLimit
  split
  · exact ⟨rfl, rfl, rfl⟩
  · refine ⟨⟨.ok (), _, s.own, rfl, rfl⟩, ?_⟩
    rintro reply s' ⟨t, same, rfl⟩
    obtain rfl : t = s.own := same
    cases reply with
    | error err => exact say_ensures _ _
    | ok => exact ⟨rfl, rfl, rfl⟩

/-- What the calls of a reader can take from a stream that holds so much. -/
def reading : Pipe.Call → Bytes → Bool
  | .readExact count, pipe => count ≤ pipe.length
  | .allocate _, _ => true
  | _, _ => false

/-- A writer's calls. -/
def writing : Pipe.Call → Prop
  | .writeAll _ => True
  | .flush => True
  | _ => False

instance : DecidablePred writing
  | .writeAll _ => .isTrue trivial
  | .flush => .isTrue trivial
  | .readExact _ => .isFalse id
  | .allocate _ => .isFalse id

theorem handle_enough {count : Nat} {pipe : Bytes} (enough : count ≤ pipe.length) :
    Pipe.handle (.readExact count) pipe =
      (.ok ⟨pipe.take count, List.length_take_of_le enough⟩, pipe.drop count) := dif_pos enough

theorem stream_reads {t : FileTree} {wrote : Bytes} (c : Pipe.Call) (held : Bytes)
    (s : Streams UInt8 Out FileTree) (pipe : Bytes)
    (state : held ++ s.input = pipe ∧ s.own = t ∧ s.written .stdout = wrote)
    (may : reading c pipe = true) :
    (stream c held).Ensures (answers (own typst dies) ends) (fun made s' =>
      made.1 = (Pipe.handle c pipe).1 ∧ made.2 ++ s'.input = (Pipe.handle c pipe).2 ∧
        s'.own = t ∧ s'.written .stdout = wrote) s := by
  obtain ⟨rfl, same, quiet⟩ := state
  cases c with
  | readExact count =>
      have there := of_decide_eq_true may
      refine (readExact_ensures there (Nat.sub_le _ _)).mono ?_
      rintro made s' ⟨got, left, kept⟩
      rw [handle_enough there]
      exact ⟨got, left, by rw [kept]; exact same, by rw [kept]; exact quiet⟩
  | allocate => exact ⟨rfl, rfl, same, quiet⟩
  | writeAll => cases may
  | flush => cases may

theorem stream_writes {t : FileTree} {left : Bytes} (c : Pipe.Call) (held : Bytes)
    (s : Streams UInt8 Out FileTree) (pipe : Bytes)
    (state : s.written .stdout = pipe ∧ s.own = t ∧ held ++ s.input = left)
    (may : decide (writing c) = true) :
    (stream c held).Ensures (answers (own typst dies) ends) (fun made s' =>
      made.1 = (Pipe.handle c pipe).1 ∧ s'.written .stdout = (Pipe.handle c pipe).2 ∧
        s'.own = t ∧ made.2 ++ s'.input = left) s := by
  obtain ⟨rfl, same, rest⟩ := state
  have allowed := of_decide_eq_true may
  cases c with
  | writeAll bytes =>
      refine Prog.ensures_bind.2 ((writeAll_ensures le_rfl).mono ?_)
      rintro made s' ⟨rfl, rfl⟩
      refine ⟨rfl, ?_, same, rest⟩
      show Function.update s.written .stdout (s.written .stdout ++ bytes) .stdout = _
      rw [Function.update_self]
      rfl
  | flush => exact ⟨rfl, rfl, same, rest⟩
  | readExact => cases allowed
  | allocate => cases allowed

variable {jobs : Codec Job} {results : Codec JobResult}

theorem play_readExact {α : Type} {count : Nat} {pipe : Bytes} (enough : count ≤ pipe.length)
    (next : Pipe.Reply (.readExact count) → Pipe.PipeProg α) :
    (Prog.call (.readExact count) next).play Pipe.handle reading pipe =
      (next (.ok ⟨pipe.take count, List.length_take_of_le enough⟩)).play Pipe.handle reading
        (pipe.drop count) := by
  have may : reading (.readExact count) pipe = true := decide_eq_true enough
  rw [Prog.play, if_pos may, handle_enough enough]

theorem play_allocate {α : Type} {bytes : Nat} {pipe : Bytes} (next : Unit → Pipe.PipeProg α) :
    (Prog.call (.allocate bytes) next).play Pipe.handle reading pipe =
      (next ()).play Pipe.handle reading pipe := rfl

theorem play_readFrame {T : Type} {codec : Codec T} {value : T} {payload : Bytes}
    (decoded : codec.fromSlice payload = .ok value) (fits : payload.length ≤ maxFrameBytes) :
    (Pipe.readFrame codec).play Pipe.handle reading
      (Frame.littleEndian 4 payload.length ++ payload) = some (.ok value, []) := by
  have width := Frame.littleEndian_length 4 payload.length
  have first : 4 ≤ (Frame.littleEndian 4 payload.length ++ payload).length := by simp
  have behind : (Frame.littleEndian 4 payload.length ++ payload).drop 4 = payload :=
    List.drop_left' width
  have length : Frame.ofLittleEndian ((Frame.littleEndian 4 payload.length ++ payload).take 4) =
      payload.length := by
    rw [List.take_left' width]
    exact Frame.ofLittleEndian_littleEndian (Nat.lt_of_le_of_lt fits frameFormat.fits)
  unfold Pipe.readFrame
  rw [Prog.bind_eq, Prog.perform_bind, play_readExact first, behind]
  dsimp only
  generalize Frame.ofLittleEndian _ = announced at length ⊢
  subst length
  rw [if_neg (Nat.not_lt.2 fits), Prog.bind_eq, Prog.perform_bind, play_allocate, Prog.bind_eq,
    Prog.perform_bind, play_readExact le_rfl, List.drop_length]
  simp only [List.take_length, decoded, Prog.pure_eq]
  rfl

theorem play_writeFrame {T : Type} (codec : Codec T) (value : T) (pipe : Bytes) :
    (Pipe.writeFrame codec value).play Pipe.handle (fun c _ => decide (writing c)) pipe =
      some (match writeFrame codec value with
        | .ok frame => (.ok (), pipe ++ frame)
        | .error error => (.error error, pipe)) := by
  have writes : (Pipe.writeFrame codec value).Calls writing := by
    unfold Pipe.writeFrame
    split
    · trivial
    · split
      · trivial
      · refine ⟨trivial, ?_⟩
        rintro (error | ⟨⟩)
        · trivial
        · refine ⟨trivial, ?_⟩
          rintro (error | ⟨⟩)
          · trivial
          · exact ⟨trivial, fun _ => trivial⟩
  exact (Prog.play_of_calls (fun c _ allowed => decide_eq_true allowed) writes pipe).trans
    (congrArg some (Pipe.run_writeFrame codec value pipe))

/-- What a worker that was sent this job leaves, however it ended. -/
def Left (typst : Typst F) (dies : FileTree → Job → Prop) (results : Codec JobResult) (job : Job)
    (t : FileTree) (status : ExitStatus) (s : Streams UInt8 Out FileTree) : Prop :=
  s.input = [] ∧
    ((dies t job ∧ s.written .stdout = []) ∨
      ∃ result, execute typst t job = (result, s.own) ∧
        match writeFrame results result with
        | .ok frame => status = .code 0 ∧ s.written .stdout = frame
        | .error _ => status = .code 3 ∧ s.written .stdout = [])

theorem OnlySaid.left {s s' : Streams UInt8 Out FileTree} (said : OnlySaid s s') {job : Job}
    {t : FileTree} {status : ExitStatus} (left : Left typst dies results job t status s) :
    Left typst dies results job t status s' := by
  obtain ⟨own, input, stdout⟩ := said
  unfold Left
  rw [own, input, stdout]
  exact left

/-- Written behind nothing, a result leaves what it should. -/
theorem writeResult_ensures {job : Job} {result : JobResult} {t t' : FileTree} {held : Bytes}
    {s : Streams UInt8 Out FileTree} (ran : execute typst t job = (result, t'))
    (silent : s.written .stdout = []) (same : s.own = t') (read : held ++ s.input = []) :
    (writeResult results result held).Ensures (answers (own typst dies) ends)
      (Left typst dies results job t) s := by
  unfold writeResult
  refine Prog.ensures_bind.2 ((Prog.ensures_via stream_writes ⟨silent, same, read⟩
    (play_writeFrame results result [])).mono ?_)
  rintro ⟨made, held'⟩ s' ⟨rfl, wrote, tree, rest⟩
  have input := (List.append_eq_nil_iff.1 rest).2
  cases written : writeFrame results result with
  | ok frame =>
      rw [written] at wrote
      refine ⟨input, .inr ⟨result, tree ▸ ran, ?_⟩⟩
      rw [written]
      exact ⟨rfl, wrote⟩
  | error err =>
      rw [written] at wrote
      refine Prog.ensures_bind.2 ((say_ensures _ _).mono fun _ s'' said => ?_)
      refine said.left ⟨input, .inr ⟨result, tree ▸ ran, ?_⟩⟩
      rw [written]
      exact ⟨rfl, wrote⟩

theorem runJob_ensures {job : Job} {t : FileTree} {held : Bytes} {s : Streams UInt8 Out FileTree}
    (silent : s.written .stdout = []) (same : s.own = t) (read : held ++ s.input = []) :
    (runJob results job held).Ensures (answers (own typst dies) ends)
      (Left typst dies results job t) s := by
  unfold runJob
  refine Prog.ensures_bind.2 ((applyMemoryLimit_ensures _ s).mono fun _ s1 limited => ?_)
  obtain rfl : s1.own = t := limited.own.trans same
  refine ⟨⟨.finished (execute typst s1.own job).1 [], _, (execute typst s1.own job).2, rfl, rfl⟩, ?_⟩
  rintro reply s2 ⟨t', ran, rfl⟩
  cases reply with
  | finished result text =>
      show (Prog.bind (writeAll .stderr text.length text) _).Ensures _ _ _
      refine Prog.ensures_bind.2 ((stderr_ensures le_rfl).mono fun _ s3 said => ?_)
      refine writeResult_ensures ran ?_ said.own ?_
      · rw [said.stdout]
        exact limited.stdout.trans silent
      · rw [said.input, limited.input, read]
  | died status text =>
      show (Prog.bind (writeAll .stderr text.length text) _).Ensures _ _ _
      refine Prog.ensures_bind.2 ((stderr_ensures le_rfl).mono fun _ s3 said => said.left ⟨?_, .inl ⟨ran, ?_⟩⟩)
      · rw [limited.input]
        exact (List.append_eq_nil_iff.1 read).2
      · exact limited.stdout.trans silent

/-- A job's frame is read as the job. -/
theorem reads_job {job : Job} {frame : Bytes} (lossless : jobs.Lossless)
    (sent : writeFrame jobs job = .ok frame) :
    (Pipe.readFrame jobs).play Pipe.handle reading frame = some (.ok job, []) := by
  obtain ⟨payload, encoded, -⟩ := bind_eq_ok.1 sent
  have encoded := mapError_eq_ok.1 encoded
  rw [writeFrame_encoded encoded] at sent
  split at sent
  · rename_i fits
    rw [← Except.ok.inj sent]
    exact play_readFrame (lossless job payload encoded) fits
  · cases sent

/-- **The worker alone.**  It reads its job to the last byte and asks for no more. -/
theorem run_ensures {job : Job} {frame : Bytes} (lossless : jobs.Lossless)
    (sent : writeFrame jobs job = .ok frame) (t : FileTree) :
    (run jobs results).Ensures (answers (own typst dies) ends) (Left typst dies results job t)
      ⟨t, frame, fun _ => []⟩ := by
  have read : ((Pipe.readFrame jobs).via stream []).Ensures (answers (own typst dies) ends)
      (fun made s' => made.1 = .ok job ∧ made.2 ++ s'.input = [] ∧ s'.own = t ∧
        s'.written .stdout = []) ⟨t, frame, fun _ => []⟩ :=
    Prog.ensures_via (m := frame) stream_reads ⟨rfl, rfl, rfl⟩ (reads_job lossless sent)
  unfold run
  refine Prog.ensures_bind.2 (read.mono ?_)
  rintro ⟨_, held⟩ s ⟨rfl, read, same, silent⟩
  exact runJob_ensures silent same read

end Alone

/-! ## The worker on its pipes -/

abbrev Pump := Conf UInt8 Out FileTree OwnReply ExitStatus

/-- The worker has been spawned; `frame` is what it is to be sent. -/
def pump (jobs : Codec Job) (results : Codec JobResult) (frame : Bytes) (t : FileTree) : Pump :=
  Conf.start (run jobs results) frame t

/-- What `compile` returns once the worker has ended. -/
def outcome (results : Codec JobResult) (c : Pump) : Option (Except SpawnError JobResult) :=
  match c.child with
  | .ret status =>
      some (conclude results status (c.collected .stdout) (c.collected .stderr) c.broken)
  | .call .. => none

section Pumped

variable {F : Type} [F32 F] (typst : Typst F) (dies : FileTree → Job → Prop) (ends : Bool)
  {jobs : Codec Job} (results : Codec JobResult) {roomIn : Nat} {room : Out → Nat} {job : Job}
  {frame : Bytes}

/-- Every run of the pump can be completed. -/
theorem exists_pumped (lossless : jobs.Lossless) (sent : writeFrame jobs job = .ok frame)
    (space : 0 < roomIn) (spaces : ∀ out, 0 < room out) {t : FileTree} {c : Pump}
    (reached : Reaches (own typst dies) ends roomIn room (pump jobs results frame t) c) :
    ∃ c', Reaches (own typst dies) ends roomIn room c c' ∧ c'.Complete := by
  have ensures : (run jobs results).Ensures (answers (own typst dies) ends)
      (Left typst dies results job t) (pump jobs results frame t).streams :=
    run_ensures lossless sent t
  exact exists_complete (reached.coherent (coherent_start _ _ _)) (reached.ensures ensures) space
    spaces

/-- **The pump completes.**  Its runs are finite, one that can go no further has ended the worker
and collected both its streams, and every one can be carried that far. -/
theorem pump_completes (lossless : jobs.Lossless) (sent : writeFrame jobs job = .ok frame)
    (space : 0 < roomIn) (spaces : ∀ out, 0 < room out) (t : FileTree) (c : Pump)
    (reached : Reaches (own typst dies) ends roomIn room (pump jobs results frame t) c) :
    Acc (fun c' c => Step (own typst dies) ends roomIn room c c') c ∧
      ((∀ c', ¬ Step (own typst dies) ends roomIn room c c') → c.Complete) ∧
      ∃ c', Reaches (own typst dies) ends roomIn room c c' ∧ c'.Complete := by
  have ensures : (run jobs results).Ensures (answers (own typst dies) ends)
      (Left typst dies results job t) (pump jobs results frame t).streams :=
    run_ensures lossless sent t
  exact ⟨step_wellFounded.apply c, stuck_complete (reached.ensures ensures) space spaces,
    exists_pumped typst dies ends results lossless sent space spaces reached⟩

/-- A result frame alone on the output is the result. -/
theorem conclude_frame {results : Codec JobResult} {result : JobResult} {frame : Bytes}
    (lossless : results.Lossless) (written : writeFrame results result = .ok frame) (err : Bytes) :
    conclude results (.code 0) frame err false = .ok result := by
  have read := readFrame_writeFrame lossless written []
  rw [List.append_nil] at read
  have some_ : ¬ frame.isEmpty := by
    intro empty
    rw [List.isEmpty_iff.1 empty] at read
    cases read
  simp [conclude, some_, read]

/-- Nothing on the output is a worker that died. -/
theorem conclude_silent (results : Codec JobResult) (status : ExitStatus) (err : Bytes)
    (writeErr : Bool) : conclude results status [] err writeErr =
      .error (.died (describe status) (trim (fromUtf8Lossy err))) := by
  simp [conclude]

/-- **A compile is the job run in place.**  However the two processes are scheduled and whatever the
pipes hold, the result is what running the job comes to, with the files it wrote; there is none
exactly when the process died or its result is too long for a frame. -/
theorem compile_is_execute (sending : jobs.Lossless) (receiving : results.Lossless)
    (sent : writeFrame jobs job = .ok frame) (t : FileTree) (c : Pump)
    (reached : Reaches (own typst dies) ends roomIn room (pump jobs results frame t) c)
    (complete : c.Complete) :
    (∃ result out, execute typst t job = (result, c.own) ∧ writeFrame results result = .ok out ∧
        outcome results c = some (.ok result)) ∨
      (∃ result error stderr, execute typst t job = (result, c.own) ∧
        writeFrame results result = .error error ∧
        outcome results c = some (.error (.died "exit code 3" stderr))) ∨
      (dies t job ∧ ∃ exit stderr, outcome results c = some (.error (.died exit stderr))) := by
  obtain ⟨status, left, returned, ran, unbroken⟩ := complete_exec reached complete
  obtain ⟨read, ended⟩ := (run_ensures sending sent t).exec ran
  have concluded : outcome results c = some (conclude results status (c.collected .stdout)
      (c.collected .stderr) c.broken) := by
    unfold outcome
    rw [returned]
  rw [concluded]
  rcases ended with ⟨died, silent⟩ | ⟨result, did, wrote⟩
  · have silent : c.collected .stdout = [] := silent
    rw [silent, conclude_silent]
    exact .inr (.inr ⟨died, _, _, rfl⟩)
  · cases written : writeFrame results result with
    | ok out =>
        rw [written] at wrote
        obtain ⟨rfl, collected⟩ := wrote
        obtain rfl : c.collected .stdout = out := collected
        rw [unbroken read, conclude_frame receiving written]
        exact .inl ⟨result, _, did, written, rfl⟩
    | error error =>
        rw [written] at wrote
        obtain ⟨rfl, collected⟩ := wrote
        have silent : c.collected .stdout = [] := collected
        rw [silent, conclude_silent]
        exact .inr (.inl ⟨result, error, _, did, written, rfl⟩)

open TypstMcp.Render in
/-- **The worker is the compile.**  Of a staged bundle every complete run of the pump, whatever the
schedule and the pipes, gives the document `compileBundle` gives, or the worker is reported dead,
which it is only when its process may die or its result fills no frame. -/
theorem compileBundle_pumped (sending : jobs.Lossless) (receiving : results.Lossless)
    {workspaceParent : Path} {name : String} {fontDirs : List Path} {bundle : Bundle}
    (sourceMap : Template.SourceMap) {limits : JobLimits} {t t' : FileTree} {prepared : PreparedJob}
    (staged : stage workspaceParent name bundle fontDirs limits t = .ok (prepared, t'))
    (sent : writeFrame jobs prepared.job = .ok frame) (c : Pump)
    (reached : Reaches (own typst dies) ends roomIn room (pump jobs results frame t') c)
    (complete : c.Complete) :
    (∃ result, outcome results c = some (.ok result) ∧
        receive c.own prepared.job sourceMap result =
          compileBundle typst workspaceParent name fontDirs bundle sourceMap limits t) ∨
      ((dies t' prepared.job ∨
          ∃ error, writeFrame results (execute typst t' prepared.job).1 = .error error) ∧
        ∃ exit stderr, outcome results c = some (.error (.died exit stderr))) := by
  rcases compile_is_execute typst dies ends results sending receiving sent t' c reached complete with
    ⟨result, out, ran, -, given⟩ | ⟨result, error, stderr, ran, long, given⟩ | ⟨died, given⟩
  · exact .inl ⟨result, given, (compileBundle_staged staged ran).symm⟩
  · refine .inr ⟨.inr ⟨error, ?_⟩, _, stderr, given⟩
    rw [ran]
    exact long
  · exact .inr ⟨.inl died, given⟩

end Pumped

/-! ## A result in the text of `serde_json` -/

/-- A member after the first. -/
def jsonMember (name value : String) : String := ",\"" ++ name ++ "\":" ++ value

/-- A member that is left out where it is `None`. -/
def optional (name : String) (value : Option String) : String :=
  (value.map (jsonMember name)).getD ""

def diagnosticText (diagnostic : Render.Diagnostic) : String :=
  "\x7b\"severity\":" ++
    (match diagnostic.severity with | .error => "\"error\"" | .warning => "\"warning\"") ++
    optional "file" (diagnostic.file.map quoted) ++
    optional "line" (diagnostic.line.map toString) ++
    optional "col" (diagnostic.col.map toString) ++
    jsonMember "message" (quoted diagnostic.message) ++
    (if diagnostic.hints.isEmpty then ""
      else jsonMember "hints" (listText (diagnostic.hints.map quoted))) ++ "\x7d"

def previewText (preview : JobPreview) : String :=
  "\x7b\"page\":" ++ toString preview.page ++
    jsonMember "width" (toString preview.width) ++
    jsonMember "height" (toString preview.height) ++ "\x7d"

def resultText : JobResult → String
  | .ok pages previews diagnostics => "\x7b\"status\":\"ok\"" ++
      jsonMember "pages" (toString pages) ++
      jsonMember "previews" (listText (previews.map previewText)) ++
      jsonMember "diagnostics" (listText (diagnostics.map diagnosticText)) ++ "\x7d"
  | .failed message diagnostics => "\x7b\"status\":\"failed\"" ++
      jsonMember "message" (quoted message) ++
      jsonMember "diagnostics" (listText (diagnostics.map diagnosticText)) ++ "\x7d"
  | .internal => "\x7b\"status\":\"internal\"\x7d"

/-- The codec at one result. -/
def resultCodecAt (result : JobResult) : Codec JobResult := .spelled (resultText result) result

theorem resultCodecAt_lossless (result : JobResult) : (resultCodecAt result).Lossless :=
  Codec.spelled_lossless (resultText result) result

/-! ## A letter, through pipes of one byte -/

open TypstMcp.Render in
/-- The letter's job and its result both fit a frame. -/
theorem letter_sent : ∃ (bundle : Bundle) (prepared : PreparedJob) (t : FileTree) (frame out : Bytes),
    stage ["work"] "compile-k3v9ab" bundle [] (asking [2, 1]) rootTree = .ok (prepared, t) ∧
      (execute paged t prepared.job).1 = .ok 2 [⟨2, 595, 842⟩, ⟨1, 595, 842⟩] [] ∧
      writeFrame (codecAt prepared.job) prepared.job = .ok frame ∧
      writeFrame (resultCodecAt (execute paged t prepared.job).1) (execute paged t prepared.job).1 =
        .ok out := by
  have evaluated : ((Bundle.new "main.typ" letter ∅ 1024).toOption.any fun bundle =>
      (stage ["work"] "compile-k3v9ab" bundle [] (asking [2, 1]) rootTree).toOption.any fun staged =>
        (utf8 staged.1.job.text).length ≤ maxFrameBytes ∧
          (execute paged staged.2 staged.1.job).1 = .ok 2 [⟨2, 595, 842⟩, ⟨1, 595, 842⟩] []) = true := by
    decide +kernel
  obtain ⟨bundle, -, evaluated⟩ := ok_of_any evaluated
  obtain ⟨⟨prepared, t⟩, staged, evaluated⟩ := ok_of_any evaluated
  obtain ⟨short, result⟩ := of_decide_eq_true evaluated
  have brief : (utf8 (resultText (.ok 2 [⟨2, 595, 842⟩, ⟨1, 595, 842⟩] []))).length ≤
      maxFrameBytes := by
    decide +kernel
  obtain ⟨frame, sent⟩ := @writeFrame_ok _ (codecAt prepared.job) _ _ (if_pos rfl) short
  obtain ⟨out, written⟩ := @writeFrame_ok _
    (resultCodecAt (execute paged t prepared.job).1) _ _ (if_pos rfl) (result.symm ▸ brief)
  exact ⟨bundle, prepared, t, frame, out, staged, result, sent, written⟩

open TypstMcp.Render in
theorem pump_completes_letter : ∃ (bundle : Bundle) (prepared : PreparedJob) (t : FileTree)
    (frame : Bytes) (c : Pump),
    stage ["work"] "compile-k3v9ab" bundle [] (asking [2, 1]) rootTree = .ok (prepared, t) ∧
      Reaches (own paged fun _ _ => False) false 1 (fun _ => 1)
        (pump (codecAt prepared.job) (resultCodecAt (execute paged t prepared.job).1) frame t) c ∧
      c.Complete := by
  obtain ⟨bundle, prepared, t, frame, -, staged, -, sent, -⟩ := letter_sent
  obtain ⟨-, -, c, reached, complete⟩ := pump_completes paged (fun _ _ => False) false
    (resultCodecAt (execute paged t prepared.job).1) (codecAt_lossless _) sent Nat.one_pos
    (fun _ => Nat.one_pos) t _ .refl
  exact ⟨bundle, prepared, t, frame, c, staged, reached, complete⟩

open TypstMcp.Render in
theorem compileBundle_pumped_letter : ∃ (bundle : Bundle) (prepared : PreparedJob) (t : FileTree)
    (frame : Bytes) (c : Pump),
    stage ["work"] "compile-k3v9ab" bundle [] (asking [2, 1]) rootTree = .ok (prepared, t) ∧
      Reaches (own paged fun _ _ => False) true 1 (fun _ => 1)
        (pump (codecAt prepared.job) (resultCodecAt (execute paged t prepared.job).1) frame t) c ∧
      ∃ result, outcome (resultCodecAt (execute paged t prepared.job).1) c = some (.ok result) ∧
        receive c.own prepared.job {} result =
          compileBundle paged ["work"] "compile-k3v9ab" [] bundle {} (asking [2, 1]) rootTree := by
  obtain ⟨bundle, prepared, t, frame, out, staged, -, sent, written⟩ := letter_sent
  obtain ⟨c, reached, complete⟩ := exists_pumped paged (fun _ _ => False) true
    (resultCodecAt (execute paged t prepared.job).1) (codecAt_lossless _) sent Nat.one_pos
    (fun _ => Nat.one_pos) .refl
  rcases compileBundle_pumped paged (fun _ _ => False) true _ (codecAt_lossless _)
    (resultCodecAt_lossless _) {} staged sent c reached complete with
    ⟨result, given, same⟩ | ⟨died | ⟨error, long⟩, -⟩
  · exact ⟨bundle, prepared, t, frame, c, staged, reached, result, given, same⟩
  · exact died.elim
  · rw [written] at long
    cases long

end TypstMcp.Worker.Run
