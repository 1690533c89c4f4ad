/-
Template.Decoding -- what decoding an archive may take and hold

`Template.Archive` reads a member's content in one piece.  Here a read gives as little as
the inner reader likes, and the decoder is a machine that the tar and gzip crates drive:
they read the decompressed stream whenever and as often as they please, and list whatever
members they please.

* `answers_took`: what any sequence of reads takes out of the inner stream.
* `entries_played`: the loop of `fromArchive` is a run of the machine.
* `from_archive_bounded`: the bounds of every run, and what the bounded reader delivers in it.
* `from_archive_longer_ends`: asked again after it failed, the reader may report the end.
-/
import TypstMcp.Template.Archive
import TypstMcp.Theory.Play

namespace TypstMcp.Template

open TypstMcp.Bundle TypstMcp.Theory TypstMcp.Theory.Json

set_option autoImplicit false

/-! ## Reads of any size -/

/-- One call of `read`: the room in its buffer, and the most that comes back at once. -/
structure Call where
  room : Nat
  most : Nat
  deriving DecidableEq, Repr

/-- The answers to the calls so far. -/
abbrev Answers := List (Except String Bytes)

/-- The bytes the answers carried. -/
def delivered (log : Answers) : Bytes := log.flatMap fun answer => answer.toOption.getD []

/-- How many of the answers were errors. -/
def failures (log : Answers) : Nat := log.countP fun answer => !answer.isOk

theorem delivered_append (log more : Answers) :
    delivered (log ++ more) = delivered log ++ delivered more := List.flatMap_append

theorem failures_append (log more : Answers) :
    failures (log ++ more) = failures log + failures more := List.countP_append

namespace BoundedReader

/-- One read where the inner reader may give less than there is room for; it gives something as
long as it has something.  The reader is left as it is also by a failure. -/
def answer (reader : BoundedReader) (call : Call) : Except String Bytes × BoundedReader :=
  if call.room = 0 then (.ok [], reader)
  else if reader.remaining = 0 then
    match reader.inner.read 1 with
    | .ok (probe, inner) => (if probe = [] then .ok [] else .error exceeded, { reader with inner })
    | .error e => (.error e, reader)
  else
    match reader.inner.read (min (min call.room reader.remaining) (max call.most 1)) with
    | .ok (got, inner) => (.ok got, { inner, remaining := reader.remaining - got.length })
    | .error e => (.error e, reader)

def answers (reader : BoundedReader) : List Call → Answers × BoundedReader
  | [] => ([], reader)
  | call :: rest =>
      let later := (reader.answer call).2.answers rest
      ((reader.answer call).1 :: later.1, later.2)

/-- A read that gives all there is room for. -/
theorem read_eq (reader : BoundedReader) (room : Nat) :
    reader.read room = match reader.answer ⟨room, room⟩ with
      | (.ok got, next) => .ok (got, next)
      | (.error e, _) => .error e := by
  unfold read answer
  by_cases empty : room = 0
  · simp only [empty, if_true]
  · by_cases spent : reader.remaining = 0
    · simp only [empty, spent, if_true, if_false]
      cases reader.inner.read 1 with
      | error e => rfl
      | ok got => by_cases none : got.1 = [] <;> simp [none]
    · have all : min (min room reader.remaining) (max room 1) = min room reader.remaining := by
        omega
      simp only [empty, spent, if_false, all]
      cases reader.inner.read (min room reader.remaining) <;> rfl

variable {reader before mid after : BoundedReader} {log more : Answers} {call : Call}

/-- What reads took: the bytes they delivered, then one byte for each probe that failed. -/
structure Took (before : BoundedReader) (log : Answers) (after : BoundedReader) : Prop where
  bytes : ∃ probed : Bytes, before.inner.bytes = delivered log ++ probed ++ after.inner.bytes ∧
    probed.length ≤ failures log ∧ (probed ≠ [] → after.remaining = 0)
  remaining : before.remaining = (delivered log).length + after.remaining
  failure : after.inner.failure = before.inner.failure

theorem Took.refl (reader : BoundedReader) : Took reader [] reader where
  bytes := ⟨[], rfl, Nat.zero_le _, fun some => (some rfl).elim⟩
  remaining := (Nat.zero_add _).symm
  failure := rfl

theorem Took.trans (first : Took before log mid) (second : Took mid more after) :
    Took before (log ++ more) after := by
  obtain ⟨probed, bytes, few, spent⟩ := first.bytes
  obtain ⟨probed', bytes', few', spent'⟩ := second.bytes
  have left := second.remaining
  refine ⟨⟨probed ++ probed', ?_, ?_, ?_⟩, ?_, second.failure.trans first.failure⟩
  · rw [bytes, bytes', delivered_append]
    cases probed with
    | nil => simp only [List.append_nil, List.nil_append, List.append_assoc]
    | cons b rest =>
        -- once a byte was probed nothing is delivered any more
        have none : delivered more = [] := by
          have := spent (List.cons_ne_nil b rest)
          exact List.length_eq_zero_iff.1 (by omega)
        simp only [none, List.append_nil, List.nil_append, List.append_assoc]
  · rw [List.length_append, failures_append]
    omega
  · intro some
    by_cases none : probed = []
    · exact spent' (by rwa [none, List.nil_append] at some)
    · have := spent none
      omega
  · rw [first.remaining, delivered_append, List.length_append]
    omega

/-- Everything a read can come to. -/
inductive Answered (reader : BoundedReader) (call : Call) :
    Except String Bytes × BoundedReader → Prop
  | idle (empty : call.room = 0) : Answered reader call (.ok [], reader)
  | ended (drained : reader.inner.bytes = []) (clean : reader.inner.failure = none) :
      Answered reader call (.ok [], reader)
  | failed (e : String) (drained : reader.inner.bytes = [])
      (failure : reader.inner.failure = some e) : Answered reader call (.error e, reader)
  | overrun (b : UInt8) (rest : Bytes) (spent : reader.remaining = 0)
      (bytes : reader.inner.bytes = b :: rest) :
      Answered reader call (.error exceeded, ⟨⟨rest, reader.inner.failure⟩, 0⟩)
  | data (n : Nat) (some : 0 < n) (room : n ≤ call.room) (budget : n ≤ reader.remaining)
      (there : n ≤ reader.inner.bytes.length) :
      Answered reader call (.ok (reader.inner.bytes.take n),
        ⟨⟨reader.inner.bytes.drop n, reader.inner.failure⟩, reader.remaining - n⟩)

theorem answer_answered (reader : BoundedReader) (call : Call) :
    Answered reader call (reader.answer call) := by
  obtain ⟨⟨bytes, failure⟩, remaining⟩ := reader
  unfold answer
  by_cases empty : call.room = 0
  · rw [if_pos empty]
    exact .idle empty
  · rw [if_neg empty]
    cases bytes with
    | nil =>
        cases failure with
        | none => by_cases spent : remaining = 0 <;> simp [Stream.read, spent, Answered.ended]
        | some e => by_cases spent : remaining = 0 <;> simp [Stream.read, spent, Answered.failed]
    | cons b rest =>
        by_cases spent : remaining = 0
        · simp only [Stream.read, spent, if_true, ne_eq, reduceCtorEq, not_false_eq_true]
          exact .overrun b rest rfl rfl
        · -- the inner reader gives what it has, up to the least of the three bounds
          obtain ⟨bytes, all⟩ : ∃ bytes, bytes = b :: rest := ⟨_, rfl⟩
          obtain ⟨most, least⟩ : ∃ n, n = min (min call.room remaining) (max call.most 1) := ⟨_, rfl⟩
          have there : bytes ≠ [] := all ▸ List.cons_ne_nil b rest
          have length : 0 < bytes.length := List.length_pos_iff.2 there
          have taken : bytes.take (min most bytes.length) = bytes.take most := by
            rw [← List.take_take, List.take_length]
          have left : bytes.drop (min most bytes.length) = bytes.drop most := by
            rcases Nat.le_total most bytes.length with short | long
            · rw [Nat.min_eq_left short]
            · rw [Nat.min_eq_right long, List.drop_length, List.drop_of_length_le long]
          have data : Answered ⟨⟨bytes, failure⟩, remaining⟩ call (_, _) :=
            .data (min most bytes.length) (by omega) (by omega) (show _ ≤ remaining by omega)
              (Nat.min_le_right _ _)
          simp only [taken, left] at data
          simp only [Stream.read, spent, if_false, ← all, ← least, if_pos there, List.length_take]
          exact data

/-- What one read takes. -/
theorem answer_took (reader : BoundedReader) (call : Call) :
    Took reader [(reader.answer call).1] (reader.answer call).2 := by
  have unread : ∀ answer : Except String Bytes, answer.toOption.getD [] = [] →
      Took reader [answer] reader := by
    intro answer none
    refine ⟨⟨[], ?_, Nat.zero_le _, fun some => (some rfl).elim⟩, ?_, rfl⟩
    · simp [delivered, none]
    · simp [delivered, none]
  have shape := answer_answered reader call
  generalize reader.answer call = outcome at shape ⊢
  cases shape with
  | idle empty => exact unread _ rfl
  | ended drained clean => exact unread _ rfl
  | failed e drained failure => exact unread _ rfl
  | overrun b rest spent bytes =>
      exact ⟨⟨[b], bytes, Nat.le_refl _, fun _ => rfl⟩, spent, rfl⟩
  | data n some room budget there =>
      have got : delivered [.ok (reader.inner.bytes.take n)] = reader.inner.bytes.take n :=
        List.append_nil _
      refine ⟨⟨[], ?_, Nat.zero_le _, fun some => (some rfl).elim⟩, ?_, rfl⟩
      · rw [got, List.append_nil, List.take_append_drop]
      · rw [got, List.length_take, Nat.min_eq_left there]
        show _ = n + (_ - n)
        omega

/-- **What any sequence of reads takes.** -/
theorem answers_took (reader : BoundedReader) (calls : List Call) :
    Took reader (reader.answers calls).1 (reader.answers calls).2 := by
  induction calls generalizing reader with
  | nil => exact Took.refl reader
  | cons call rest ih => exact (answer_took reader call).trans (ih _)

/-- The end is reported where there is nothing left. -/
theorem answer_end (room : 0 < call.room) (ended : (reader.answer call).1 = .ok []) :
    reader.inner = ⟨[], none⟩ := by
  have shape := answer_answered reader call
  generalize reader.answer call = outcome at shape ended
  cases shape with
  | idle empty => omega
  | ended drained clean => exact congrArg₂ Stream.mk drained clean
  | failed e drained failure => cases ended
  | overrun b rest spent bytes => cases ended
  | data n some room budget there =>
      have none := congrArg List.length (Except.ok.inj ended)
      rw [List.length_take, List.length_nil] at none
      omega

/-- An error is the inner stream's own, or the probe's. -/
theorem answer_error {e : String} (failed : (reader.answer call).1 = .error e) :
    reader.inner.bytes = [] ∧ reader.inner.failure = some e ∨
      reader.inner.bytes ≠ [] ∧ reader.remaining = 0 := by
  have shape := answer_answered reader call
  generalize reader.answer call = outcome at shape failed
  cases shape with
  | idle empty => cases failed
  | ended drained clean => cases failed
  | failed e drained failure => exact .inl ⟨drained, Except.error.inj failed ▸ failure⟩
  | overrun b rest spent bytes => exact .inr ⟨bytes ▸ List.cons_ne_nil b rest, spent⟩
  | data n some room budget there => cases failed

theorem answer_spent (room : 0 < call.room) (spent : reader.remaining = 0)
    (more : reader.inner.bytes ≠ []) : (reader.answer call).1 = .error exceeded := by
  have shape := answer_answered reader call
  generalize reader.answer call = outcome at shape ⊢
  cases shape with
  | idle empty => omega
  | ended drained clean => exact (more drained).elim
  | failed e drained failure => exact (more drained).elim
  | overrun b rest spent bytes => rfl
  | data n some room budget there => omega

/-- Within the budget there is nothing to probe, so every byte taken was delivered. -/
theorem Took.unprobed (took : Took before log after)
    (clean : failures log = 0 ∨ before.inner.bytes.length ≤ before.remaining) :
    before.inner.bytes = delivered log ++ after.inner.bytes := by
  obtain ⟨probed, bytes, few, spent⟩ := took.bytes
  have left := took.remaining
  have none : probed = [] := by
    by_contra some
    have length := congrArg List.length bytes
    have beyond := spent some
    have probes := List.length_pos_iff.2 some
    simp only [List.length_append] at length
    rcases clean with clean | within <;> omega
  rw [bytes, none, List.append_nil]

/-- What a bounded reader has delivered after any reads, and how it answers the next. -/
structure Delivers (before : BoundedReader) (log : Answers) (after : BoundedReader) : Prop where
  /-- At most the budget is taken out of the inner stream, and a byte for each failed probe. -/
  taken : before.inner.bytes.length ≤ after.inner.bytes.length + before.remaining + failures log
  inOrder : delivered log <+: before.inner.bytes
  budget : (delivered log).length ≤ before.remaining
  /-- The end is reported where the inner stream ends, with all of it delivered where nothing was
  probed. -/
  ends : ∀ call : Call, 0 < call.room → (after.answer call).1 = .ok [] →
    after.inner = ⟨[], none⟩ ∧ before.inner.failure = none ∧
      (failures log = 0 ∨ before.inner.bytes.length ≤ before.remaining →
        delivered log = before.inner.bytes)
  /-- Of a longer stream the end is not reported up to the first failed read, and past the budget that
  read fails. -/
  longer : before.remaining < before.inner.bytes.length → failures log = 0 →
    ∀ call : Call, 0 < call.room → (after.answer call).1 ≠ .ok [] ∧
      ((delivered log).length = before.remaining → (after.answer call).1 = .error exceeded)
  /-- Of a stream within the budget the only error is its own, after all of its bytes. -/
  within : before.inner.bytes.length ≤ before.remaining →
    ∀ (call : Call) (e : String), (after.answer call).1 = .error e →
      delivered log = before.inner.bytes ∧ before.inner.failure = some e

theorem Took.delivers (took : Took before log after) : Delivers before log after := by
  obtain ⟨probed, bytes, few, spent⟩ := took.bytes
  have left := took.remaining
  have length := congrArg List.length bytes
  simp only [List.length_append] at length
  refine ⟨by omega, ⟨probed ++ after.inner.bytes, by rw [bytes, List.append_assoc]⟩, by omega,
    fun call room ended => ?_, fun longer none call room => ?_, fun within call e failed => ?_⟩
  · have drained := answer_end room ended
    refine ⟨drained, ?_, fun clean => ?_⟩
    · rw [← took.failure, drained]
    · rw [took.unprobed clean, drained, List.append_nil]
  · have more : after.inner.bytes ≠ [] := by
      intro drained
      have := congrArg List.length (took.unprobed (.inl none))
      rw [List.length_append, drained, List.length_nil] at this
      omega
    exact ⟨fun ended => more (congrArg Stream.bytes (answer_end room ended)),
      fun reached => answer_spent room (by omega) more⟩
  · have whole := took.unprobed (.inr within)
    rcases answer_error failed with ⟨drained, own⟩ | ⟨more, spent⟩
    · exact ⟨by rw [whole, drained, List.append_nil], took.failure ▸ own⟩
    · have := congrArg List.length whole
      rw [List.length_append] at this
      have := List.length_pos_iff.2 more
      omega

end BoundedReader

/-! ## The decoder, driven by the crates -/

/-- What `Archive::entries` shows of a member before its content is read. -/
structure Listed where
  pathBytes : Bytes
  isFile : Bool
  size : Nat
  deriving DecidableEq, Repr

def TarEntry.listed (entry : TarEntry) : Listed := ⟨entry.pathBytes, entry.isFile, entry.size⟩

/-- The checks before a member's content is read. -/
def checkEntry (maxBytes : Nat) (progress : Progress) (listed : Listed) :
    Except TemplateError String :=
  match fromUtf8 listed.pathBytes with
  | none => .error (.badArchive "member path is not UTF-8")
  | some path =>
      match normalisePath path with
      | .error source => .error (.badPath "<upload>" path source)
      | .ok _ =>
          if listed.isFile = false then .error (.nonFileMember path)
          else if maxFiles ≤ progress.files.length then
            .error (.bundle (.tooManyFiles (progress.files.length + 1)))
          else
            let declared := min listed.size (usizeSize - 1)
            if maxBytes < saturatingAdd progress.total declared then
              .error (.bundle (.tooLarge (saturatingAdd progress.total declared) maxBytes))
            else .ok path

/-- `max_bytes - total + 1`, as it wraps in the release build. -/
def takeLimit (maxBytes total : Nat) : Nat := (maxBytes + usizeSize - total + 1) % usizeSize

/-- What becomes of a member whose content was read. -/
def keepContent (maxBytes : Nat) (progress : Progress) (path : String) (content : Bytes) :
    Except TemplateError Progress :=
  let total := saturatingAdd progress.total content.length
  if maxBytes < total then .error (.bundle (.tooLarge total maxBytes))
  else .ok { files := progress.files ++ [⟨path, classify path content⟩], total }

/-- Where the decoder is. -/
inductive Phase
  | opening
  | between
  /-- In `take(limit).read_to_end`, with what it still lets through and what was read. -/
  | content (path : String) (limit : Nat) (content : Bytes)
  | finished (result : Except TemplateError (List BundleFile))

structure Decoding where
  reader : BoundedReader
  progress : Progress := {}
  phase : Phase := .opening

/-- What the crates do next. -/
inductive Action
  /-- A read of the decompressed stream, on whatever occasion. -/
  | read (call : Call)
  | opened (outcome : Except String Unit)
  /-- `Iterator::next`. -/
  | next (entry : Option (Except String Listed))
  /-- A read of the member's content came back. -/
  | chunk (got : Except String Bytes)

namespace Decoding

variable (maxBytes : Nat)

/-- The head of the loop. -/
def advance (progress : Progress) : Option (Except String Listed) → Phase
  | none => .finished (.ok progress.files)
  | some (.error e) => .finished (.error (.badArchive e))
  | some (.ok listed) =>
      match checkEntry maxBytes progress listed with
      | .error e => .finished (.error e)
      | .ok path => .content path (takeLimit maxBytes progress.total) []

/-- Where a turn of the loop ends. -/
def settle (progress : Progress) : Except TemplateError Progress → Progress × Phase
  | .ok after => (after, .between)
  | .error e => (progress, .finished (.error e))

/-- A read of the content gave bytes, none at its end, or an error. -/
def readOn (progress : Progress) (path : String) (limit : Nat) (content : Bytes) :
    Except String Bytes → Option (Progress × Phase)
  | .error e => if limit = 0 then none else some (settle progress (.error (.badArchive e)))
  | .ok got =>
      -- a read gives no more than it was asked for
      if limit < got.length then none
      else if got = [] then some (settle progress (keepContent maxBytes progress path content))
      else some (progress, .content path (limit - got.length) (content ++ got))

def act (s : Decoding) : Action → Option Decoding
  | .read call => some { s with reader := (s.reader.answer call).2 }
  | .opened outcome =>
      match s.phase with
      | .opening => some { s with phase := match outcome with
          | .ok () => .between
          | .error e => .finished (.error (.badArchive e)) }
      | _ => none
  | .next entry =>
      match s.phase with
      | .between => some { s with phase := advance maxBytes s.progress entry }
      | _ => none
  | .chunk got =>
      match s.phase with
      | .content path limit content =>
          (readOn maxBytes s.progress path limit content got).map fun (progress, phase) =>
            { s with progress, phase }
      | _ => none

end Decoding

/-- The decompressed stream of an upload. -/
def decompressed (tar : TarCrate) (bytes : Bytes) : Stream :=
  if isGzip bytes then tar.gunzip bytes else { bytes }

/-- The decoder before anything is read. -/
def Decoding.start (tar : TarCrate) (bytes : Bytes) (maxBytes : Nat) : Decoding where
  reader := ⟨decompressed tar bytes, saturatingAdd maxBytes maxArchiveOverheadBytes⟩

theorem fromArchive_eq {F : Type} (crates : Crates F) (tar : TarCrate) (bytes : Bytes)
    (maxBytes : Nat) : fromArchive crates tar bytes maxBytes = (do
      let entries ← (tar.entries (Decoding.start tar bytes maxBytes).reader.stream).mapError
        .badArchive
      let progress ← entries.foldlM (readEntry maxBytes) {}
      fromSourceFiles crates progress.files maxBytes) := rfl

/-! ## The bounds -/

namespace Decoding

/-- Members held, one in the reading included. -/
def members (s : Decoding) : Nat :=
  s.progress.files.length + match s.phase with
    | .content _ _ _ => 1
    | _ => 0

/-- Content bytes held. -/
def held (s : Decoding) : Nat :=
  (s.progress.files.map (·.content.asBytes.length)).sum + match s.phase with
    | .content _ _ content => content.length
    | _ => 0

/-- What the loop keeps. -/
structure Within (maxBytes : Nat) (progress : Progress) (phase : Phase) : Prop where
  total : progress.total = (progress.files.map (·.content.asBytes.length)).sum
  fits : progress.total ≤ maxBytes
  files : progress.files.length ≤ maxFiles
  reading : ∀ path limit content, phase = .content path limit content →
    progress.files.length < maxFiles ∧ content.length + limit = maxBytes - progress.total + 1

variable {maxBytes : Nat} {progress : Progress} {phase : Phase} {path : String} {content : Bytes}

theorem takeLimit_eq {total : Nat} (small : maxBytes < usizeSize - 1) (fits : total ≤ maxBytes) :
    takeLimit maxBytes total = maxBytes - total + 1 := by
  unfold takeLimit
  rw [show maxBytes + usizeSize - total + 1 = maxBytes - total + 1 + usizeSize by omega,
    Nat.add_mod_right, Nat.mod_eq_of_lt (by omega)]

theorem checkEntry_room {listed : Listed} (checked : checkEntry maxBytes progress listed = .ok path) :
    progress.files.length < maxFiles := by
  unfold checkEntry at checked
  split at checked
  · cases checked
  · split at checked
    · cases checked
    · split_ifs at checked
      next room => exact Nat.lt_of_not_le room

/-- A member that is kept adds its own bytes. -/
theorem keepContent_ok {after : Progress} (small : maxBytes < usizeSize - 1)
    (kept : keepContent maxBytes progress path content = .ok after) :
    after.files = progress.files ++ [⟨path, classify path content⟩] ∧
      after.total = progress.total + content.length ∧ after.total ≤ maxBytes := by
  unfold keepContent saturatingAdd at kept
  simp only at kept
  split_ifs at kept with beyond
  obtain rfl := Except.ok.inj kept
  simp only
  exact ⟨trivial, by omega, by omega⟩

/-- Outside a member's content nothing more is held. -/
theorem Within.moved (within : Within maxBytes progress phase) {later : Phase}
    (outside : ∀ path limit content, later ≠ .content path limit content) :
    Within maxBytes progress later where
  total := within.total
  fits := within.fits
  files := within.files
  reading path limit content inside := (outside path limit content inside).elim

theorem Within.advance (small : maxBytes < usizeSize - 1) (within : Within maxBytes progress phase)
    (entry : Option (Except String Listed)) :
    Within maxBytes progress (advance maxBytes progress entry) := by
  unfold Decoding.advance
  split
  · exact within.moved (by simp)
  · exact within.moved (by simp)
  next listed =>
    split
    · exact within.moved (by simp)
    next path checked =>
      refine ⟨within.total, within.fits, within.files, ?_⟩
      rintro _ _ _ ⟨⟩
      exact ⟨checkEntry_room checked, by rw [takeLimit_eq small within.fits, List.length_nil]; omega⟩

theorem Within.settled (small : maxBytes < usizeSize - 1) (within : Within maxBytes progress phase)
    (room : progress.files.length < maxFiles) :
    Within maxBytes (settle progress (keepContent maxBytes progress path content)).1
      (settle progress (keepContent maxBytes progress path content)).2 := by
  cases kept : keepContent maxBytes progress path content with
  | error e => exact within.moved (by simp [settle])
  | ok after =>
      obtain ⟨files, total, fits⟩ := keepContent_ok small kept
      refine ⟨?_, fits, ?_, by simp [settle]⟩
      · show after.total = (after.files.map _).sum
        rw [files, total, within.total]
        simp [classify_asBytes]
      · show after.files.length ≤ _
        rw [files, List.length_append, List.length_singleton]
        exact room

theorem Within.readOn {limit : Nat} {got : Except String Bytes} {after : Progress × Phase}
    (small : maxBytes < usizeSize - 1) (within : Within maxBytes progress (.content path limit content))
    (read : readOn maxBytes progress path limit content got = some after) :
    Within maxBytes after.1 after.2 := by
  obtain ⟨room, limited⟩ := within.reading path limit content rfl
  unfold Decoding.readOn at read
  split at read
  · split_ifs at read
    obtain rfl := Option.some.inj read
    exact within.moved (by simp [settle])
  next got =>
    split_ifs at read with more done
    · obtain rfl := Option.some.inj read
      exact within.settled small room
    · obtain rfl := Option.some.inj read
      refine ⟨within.total, within.fits, within.files, ?_⟩
      rintro _ _ _ ⟨⟩
      refine ⟨room, ?_⟩
      show _ = maxBytes - progress.total + 1
      rw [List.length_append]
      omega

theorem Within.acted {s next : Decoding} {action : Action} (small : maxBytes < usizeSize - 1)
    (within : Within maxBytes s.progress s.phase) (taken : act maxBytes s action = some next) :
    Within maxBytes next.progress next.phase := by
  cases action with
  | read call =>
      obtain rfl := Option.some.inj taken
      exact within
  | opened outcome =>
      simp only [Decoding.act] at taken
      split at taken
      · obtain rfl := Option.some.inj taken
        cases outcome with
        | ok _ => exact within.moved (by simp)
        | error e => exact within.moved (by simp)
      · cases taken
  | next entry =>
      simp only [Decoding.act] at taken
      split at taken
      · obtain rfl := Option.some.inj taken
        exact within.advance small entry
      · cases taken
  | chunk got =>
      simp only [Decoding.act] at taken
      split at taken
      next path limit content inside =>
        obtain ⟨after, read, rfl⟩ := Option.map_eq_some_iff.1 taken
        exact (inside ▸ within).readOn small read
      · cases taken

/-- The reads of a run. -/
def calls (actions : List Action) : List Call :=
  actions.filterMap fun
    | .read call => some call
    | _ => none

/-- The reader goes through the reads of a run, and nothing else touches it. -/
theorem act_reader {s next : Decoding} {action : Action} (taken : act maxBytes s action = some next) :
    next.reader = (s.reader.answers (calls [action])).2 := by
  cases action with
  | read call =>
      obtain rfl := Option.some.inj taken
      rfl
  | opened outcome =>
      simp only [Decoding.act] at taken
      split at taken
      · exact Option.some.inj taken ▸ rfl
      · cases taken
  | next entry =>
      simp only [Decoding.act] at taken
      split at taken
      · exact Option.some.inj taken ▸ rfl
      · cases taken
  | chunk got =>
      simp only [Decoding.act] at taken
      split at taken
      · obtain ⟨after, read, rfl⟩ := Option.map_eq_some_iff.1 taken
        rfl
      · cases taken

theorem play_reader {s last : Decoding} {actions : List Action}
    (ran : play (act maxBytes) s actions = some last) :
    last.reader = (s.reader.answers (calls actions)).2 := by
  induction actions generalizing s with
  | nil => exact Option.some.inj ran ▸ rfl
  | cons action rest ih =>
      obtain ⟨next, taken, ran⟩ := Option.bind_eq_some_iff.1 ran
      rw [ih ran, act_reader taken]
      cases action <;> rfl

theorem start_within (tar : TarCrate) (bytes : Bytes) (maxBytes : Nat) :
    Within maxBytes (start tar bytes maxBytes).progress (start tar bytes maxBytes).phase :=
  ⟨rfl, Nat.zero_le _, Nat.zero_le _, fun _ _ _ inside => by cases inside⟩

theorem Within.played {s last : Decoding} {actions : List Action} (small : maxBytes < usizeSize - 1)
    (within : Within maxBytes s.progress s.phase) (ran : play (act maxBytes) s actions = some last) :
    Within maxBytes last.progress last.phase := by
  have kept : ∀ c a next, Within maxBytes c.progress c.phase → True → act maxBytes c a = some next →
      Within maxBytes next.progress next.phase :=
    fun _ _ _ within _ taken => within.acted small taken
  exact play_invariant kept within (every_of_forall (fun _ _ => trivial) _ _) ran

end Decoding

/-! ## The loop as a run -/

namespace Decoding

variable {maxBytes : Nat} {progress : Progress}

/-- One turn of the loop, cut where the content is read. -/
theorem readEntry_eq (entry : TarEntry) (fits : progress.total ≤ maxBytes) :
    readEntry maxBytes progress (.ok entry) = (do
      let path ← checkEntry maxBytes progress entry.listed
      let content ← (entry.content.readToEnd (takeLimit maxBytes progress.total)).mapError .badArchive
      keepContent maxBytes progress path content) := by
  have limit : takeLimit maxBytes progress.total = (maxBytes - progress.total + 1) % usizeSize := by
    unfold takeLimit
    rw [show maxBytes + usizeSize - progress.total + 1 = maxBytes - progress.total + 1 + usizeSize by
      omega, Nat.add_mod_right]
  obtain ⟨pathBytes, isFile, size, stream⟩ := entry
  show _ = Except.bind (checkEntry maxBytes progress ⟨pathBytes, isFile, size⟩) _
  rw [limit]
  simp only [readEntry, checkEntry]
  cases fromUtf8 pathBytes with
  | none => rfl
  | some path =>
      dsimp only
      cases normalisePath path with
      | error source => rfl
      | ok _ =>
          dsimp only
          cases isFile with
          | false => rfl
          | true =>
              by_cases full : maxFiles ≤ progress.files.length
              · simp only [full, if_true]
                rfl
              by_cases large : maxBytes < saturatingAdd progress.total (min size (usizeSize - 1))
              · simp only [full, large, if_true, if_false]
                rfl
              · simp only [full, large, if_false]
                cases stream.readToEnd ((maxBytes - progress.total + 1) % usizeSize) with
                | error e => rfl
                | ok content => rfl

/-- Bytes read in one go, if any. -/
theorem gather_played (reader : BoundedReader) (path : String) {limit : Nat} {got : Bytes}
    (fits : got.length ≤ limit) :
    ∃ actions, play (act maxBytes) ⟨reader, progress, .content path limit []⟩ actions =
      some ⟨reader, progress, .content path (limit - got.length) got⟩ := by
  by_cases none : got = []
  · exact ⟨[], by rw [none]; rfl⟩
  · refine ⟨[.chunk (.ok got)], ?_⟩
    simp [play, act, readOn, none, Nat.not_lt.2 fits]

/-- A member's content, read and kept. -/
theorem content_played (reader : BoundedReader) (path : String) (stream : Stream) (limit : Nat)
    {turn : Except TemplateError Progress}
    (read : turn = (do
      let content ← (stream.readToEnd limit).mapError .badArchive
      keepContent maxBytes progress path content)) :
    ∃ actions, play (act maxBytes) ⟨reader, progress, .content path limit []⟩ actions =
      some ⟨reader, (settle progress turn).1, (settle progress turn).2⟩ := by
  have ends : ∀ got : Bytes, got.length ≤ limit → turn = keepContent maxBytes progress path got →
      ∃ actions, play (act maxBytes) ⟨reader, progress, .content path limit []⟩ actions =
        some ⟨reader, (settle progress turn).1, (settle progress turn).2⟩ := by
    rintro got fits rfl
    obtain ⟨actions, gathered⟩ := gather_played reader path fits
    refine ⟨actions ++ [.chunk (.ok [])], play_concat.2 ⟨_, gathered, ?_⟩⟩
    simp [act, readOn]
  unfold Stream.readToEnd at read
  split at read
  next enough => exact ends _ (List.length_take ▸ Nat.min_le_left _ _) read
  next short =>
    split at read
    next e own =>
      obtain ⟨actions, gathered⟩ :=
        gather_played reader path (show stream.bytes.length ≤ limit by omega)
      refine ⟨actions ++ [.chunk (.error e)], play_concat.2 ⟨_, gathered, ?_⟩⟩
      have room : limit - stream.bytes.length ≠ 0 := by omega
      obtain rfl : turn = .error (.badArchive e) := read
      simp [act, readOn, room]
    · exact ends _ (by omega) read

/-- One turn of the loop. -/
theorem entry_played (reader : BoundedReader) (entry : Except String TarEntry)
    (fits : progress.total ≤ maxBytes) :
    ∃ actions, play (act maxBytes) ⟨reader, progress, .between⟩ actions =
      some ⟨reader, (settle progress (readEntry maxBytes progress entry)).1,
        (settle progress (readEntry maxBytes progress entry)).2⟩ := by
  cases entry with
  | error e => exact ⟨[.next (some (.error e))], rfl⟩
  | ok entry =>
      have turn := readEntry_eq entry fits
      cases checked : checkEntry maxBytes progress entry.listed with
      | error e =>
          rw [checked, error_bind] at turn
          have began : act maxBytes ⟨reader, progress, .between⟩ (.next (some (.ok entry.listed))) =
              some ⟨reader, progress, .finished (.error e)⟩ := by
            simp only [act, advance, checked]
          exact ⟨[.next (some (.ok entry.listed))], by rw [turn, play, began]; rfl⟩
      | ok path =>
          rw [checked, ok_bind] at turn
          obtain ⟨actions, read⟩ := content_played reader path entry.content
            (takeLimit maxBytes progress.total) turn
          have began : act maxBytes ⟨reader, progress, .between⟩ (.next (some (.ok entry.listed))) =
              some ⟨reader, progress, .content path (takeLimit maxBytes progress.total) []⟩ := by
            simp only [act, advance, checked]
          exact ⟨.next (some (.ok entry.listed)) :: actions, by rw [play, began]; exact read⟩

theorem readEntry_fits {entry : Except String TarEntry} {after : Progress}
    (fits : progress.total ≤ maxBytes) (kept : readEntry maxBytes progress entry = .ok after) :
    after.total ≤ maxBytes := by
  cases entry with
  | error e => cases kept
  | ok entry =>
      rw [readEntry_eq entry fits] at kept
      obtain ⟨path, -, kept⟩ := bind_eq_ok.1 kept
      obtain ⟨content, -, kept⟩ := bind_eq_ok.1 kept
      unfold keepContent at kept
      simp only at kept
      split_ifs at kept with beyond
      rw [← Except.ok.inj kept]
      exact Nat.le_of_not_lt beyond

/-- **The loop of `fromArchive` is a run of the decoder.** -/
theorem entries_played (reader : BoundedReader) (entries : List (Except String TarEntry))
    (fits : progress.total ≤ maxBytes) :
    ∃ actions last, play (act maxBytes) ⟨reader, progress, .between⟩ actions = some last ∧
      last.phase =
        .finished ((entries.foldlM (readEntry maxBytes) progress).map (·.files)) := by
  induction entries generalizing progress with
  | nil => exact ⟨[.next none], _, rfl, rfl⟩
  | cons entry rest ih =>
      obtain ⟨actions, read⟩ := entry_played reader entry fits
      rw [List.foldlM_cons]
      cases kept : readEntry maxBytes progress entry with
      | error e =>
          rw [kept] at read
          exact ⟨actions, _, read, rfl⟩
      | ok after =>
          rw [kept] at read
          obtain ⟨more, last, ran, ends⟩ := ih (readEntry_fits fits kept)
          refine ⟨actions ++ more, last, ?_, ends⟩
          rw [play_append, read]
          exact ran

end Decoding

/-- What decoding an upload has taken and holds, after these actions of the crates. -/
structure Bounded (tar : TarCrate) (bytes : Bytes) (maxBytes : Nat) (actions : List Action)
    (s : Decoding) : Prop where
  /-- Bytes taken from the decompressed stream, but for one-byte probes that failed. -/
  taken : (decompressed tar bytes).bytes.length - s.reader.inner.bytes.length ≤
    maxBytes + maxArchiveOverheadBytes +
      failures ((Decoding.start tar bytes maxBytes).reader.answers (Decoding.calls actions)).1
  /-- So `max_bytes - total + 1` is what it says. -/
  total : s.progress.total ≤ maxBytes
  limit : takeLimit maxBytes s.progress.total = maxBytes - s.progress.total + 1
  members : s.members ≤ 64
  held : s.held ≤ maxBytes + 1
  delivers : BoundedReader.Delivers (Decoding.start tar bytes maxBytes).reader
    ((Decoding.start tar bytes maxBytes).reader.answers (Decoding.calls actions)).1 s.reader

/-- **Decoding is bounded and cuts nothing off in silence.**  The crates read and list what they
please; one past the largest `max_bytes` the sum `max_bytes + 1` would wrap. -/
theorem from_archive_bounded (tar : TarCrate) (bytes : Bytes) (maxBytes : Nat)
    (small : maxBytes < usizeSize - 1) (actions : List Action) (s : Decoding)
    (ran : play (Decoding.act maxBytes) (Decoding.start tar bytes maxBytes) actions = some s) :
    Bounded tar bytes maxBytes actions s := by
  have within := (Decoding.start_within tar bytes maxBytes).played small ran
  have delivers := (BoundedReader.answers_took (Decoding.start tar bytes maxBytes).reader
    (Decoding.calls actions)).delivers
  rw [← Decoding.play_reader ran] at delivers
  have taken := delivers.taken
  have budget : (Decoding.start tar bytes maxBytes).reader.remaining ≤
      maxBytes + maxArchiveOverheadBytes := Nat.min_le_left _ _
  have stream : (Decoding.start tar bytes maxBytes).reader.inner = decompressed tar bytes := rfl
  rw [stream] at taken
  refine ⟨by omega, within.fits, Decoding.takeLimit_eq small within.fits, ?_, ?_, delivers⟩
  · have files := within.files
    have most : maxFiles = 64 := rfl
    unfold Decoding.members
    split
    next path limit content inside =>
      have := (within.reading path limit content inside).1
      omega
    · omega
  · have total := within.total
    have fits := within.fits
    unfold Decoding.held
    split
    next path limit content inside =>
      have := (within.reading path limit content inside).2
      omega
    · omega

/-- A stream one byte past the budget: all of the budget, the failed probe, and the end. -/
theorem BoundedReader.answers_past {n : Nat} (some : 0 < n) (b : UInt8) :
    (⟨⟨List.replicate (n + 1) b, none⟩, n⟩ : BoundedReader).answers [⟨n, n⟩, ⟨1, 1⟩] =
      ([.ok (List.replicate n b), .error exceeded], ⟨⟨[], none⟩, 0⟩) := by
  have first : (⟨⟨List.replicate (n + 1) b, none⟩, n⟩ : BoundedReader).answer ⟨n, n⟩ =
      (.ok (List.replicate n b), ⟨⟨[b], none⟩, 0⟩) := by
    simp [answer, Stream.read, some.ne', List.take_replicate, List.drop_replicate]
  have probe : (⟨⟨[b], none⟩, 0⟩ : BoundedReader).answer ⟨1, 1⟩ =
      (.error exceeded, ⟨⟨[], none⟩, 0⟩) := rfl
  simp only [answers, first, probe]

/-- An upload one byte past what is read where nothing may be kept. -/
def oversized : Bytes := List.replicate (maxArchiveOverheadBytes + 1) 0x41

/-- The read that fails takes the byte it probes, so the one after it may report the end. -/
theorem from_archive_longer_ends :
    ¬ ∀ (tar : TarCrate) (bytes : Bytes) (maxBytes : Nat), maxBytes < usizeSize - 1 →
      ∀ (actions : List Action) (s : Decoding),
      play (Decoding.act maxBytes) (Decoding.start tar bytes maxBytes) actions = some s →
      (Decoding.start tar bytes maxBytes).reader.remaining < (decompressed tar bytes).bytes.length →
      ∀ call : Call, 0 < call.room → (s.reader.answer call).1 ≠ .ok [] := by
  intro refused
  have plain : decompressed gnuTar oversized = ⟨oversized, none⟩ := rfl
  have started : (Decoding.start gnuTar oversized 0).reader =
      ⟨⟨oversized, none⟩, maxArchiveOverheadBytes⟩ := rfl
  obtain ⟨s, ran⟩ : ∃ s, play (Decoding.act 0) (Decoding.start gnuTar oversized 0)
      [.read ⟨maxArchiveOverheadBytes, maxArchiveOverheadBytes⟩, .read ⟨1, 1⟩] = some s := ⟨_, rfl⟩
  have ended : s.reader = ⟨⟨[], none⟩, 0⟩ := by
    have reads := Decoding.play_reader ran
    rw [started] at reads
    exact reads.trans (congrArg Prod.snd (BoundedReader.answers_past (by decide) 0x41))
  refine refused gnuTar oversized 0 (by decide) _ s ran ?_ ⟨1, 1⟩ Nat.one_pos (by rw [ended]; rfl)
  rw [started, plain, oversized, List.length_replicate]
  exact Nat.lt_succ_self _

/-- An upload of one member, at the budget for contents to the byte. -/
def sampleArchive : Bytes :=
  Tar.writeMember (utf8 "main.typ") (fileHeader [0x41, 0x42, 0x43]) [0x41, 0x42, 0x43] ++ Tar.trailer

/-- The reads of the tar crate: a header, the content up to its size, the padding, and a block of
zeros. -/
def sampleActions : List Action :=
  [.opened (.ok ()), .read ⟨512, 512⟩, .next (some (.ok ⟨utf8 "main.typ", true, 3⟩)), .read ⟨3, 3⟩,
    .chunk (.ok [0x41, 0x42, 0x43]), .chunk (.ok []), .read ⟨509, 509⟩, .read ⟨512, 512⟩, .next none]

theorem from_archive_bounded_sample :
    ∃ s, play (Decoding.act 3) (Decoding.start gnuTar sampleArchive 3) sampleActions = some s ∧
      (s.progress.total = 3 ∧ s.reader.inner.bytes.length = 512) ∧
      Bounded gnuTar sampleArchive 3 sampleActions s := by
  have evaluated : (play (Decoding.act 3) (Decoding.start gnuTar sampleArchive 3) sampleActions).any
      (fun s => s.progress.total = 3 ∧ s.reader.inner.bytes.length = 512) = true := by
    decide +kernel
  obtain ⟨s, ran, finished⟩ := (Option.any_eq_true _ _).1 evaluated
  exact ⟨s, ran, of_decide_eq_true finished,
    from_archive_bounded gnuTar sampleArchive 3 (by decide) sampleActions s ran⟩

end TypstMcp.Template
