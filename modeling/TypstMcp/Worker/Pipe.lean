/-
Worker.Pipe -- frames as they cross the pipe

`writeFrame` and `readFrame` call by call: what is handed to the writer, what is asked
of the reader, and how much is allocated for it.  Over a pipe that loses nothing they
are the two functions of `Worker.Protocol` (`run_writeFrame`, `run_readFrame`).

* `frame_codec`: the two ends agree on every value, every continuation of the stream
  and every point where it may be cut, and no length makes the reader allocate more
  than the limit.
-/
import TypstMcp.Worker.Outputs
import TypstMcp.Theory.Prog

namespace TypstMcp.Worker.Pipe

open TypstMcp.Theory

set_option autoImplicit false

/-! ## Calls -/

inductive Call
  | writeAll (bytes : Bytes)
  | flush
  | readExact (count : Nat)
  | allocate (bytes : Nat)

/-- The reply to each call: `read_exact` fills the whole buffer, or fails. -/
@[reducible] def Reply : Call → Type
  | .writeAll _ => Except FrameError Unit
  | .flush => Except FrameError Unit
  | .readExact count => Except FrameError {bytes : Bytes // bytes.length = count}
  | .allocate _ => Unit

abbrev PipeProg := Prog Call Reply

abbrev perform (c : Call) : PipeProg (Reply c) := Prog.perform c

variable {T : Type}

/-- `u32::try_from(len).ok().filter(|n| *n <= MAX_FRAME_BYTES)`. -/
def frameLength (length : Nat) : Option Nat :=
  (if length < 2 ^ 32 then some length else none).filter (· ≤ maxFrameBytes)

/-- Write a length-prefixed JSON frame. -/
def writeFrame (codec : Codec T) (value : T) : PipeProg (Except FrameError Unit) :=
  match codec.toVec value with
  | .error message => return .error (.invalidData message)
  | .ok payload =>
      match frameLength payload.length with
      | none => return .error (frameError (.tooLong payload.length))
      | some length => do
          match ← perform (.writeAll (Frame.littleEndian 4 length)) with
          | .error error => return .error error
          | .ok () =>
              match ← perform (.writeAll payload) with
              | .error error => return .error error
              | .ok () => perform .flush

/-- Read a length-prefixed JSON frame. -/
def readFrame (codec : Codec T) : PipeProg (Except FrameError T) := do
  match ← perform (.readExact 4) with
  | .error error => return .error error
  | .ok header =>
      let length := Frame.ofLittleEndian header.1
      if maxFrameBytes < length then return .error (frameError (.tooLong length))
      else do
        perform (.allocate length)
        match ← perform (.readExact length) with
        | .error error => return .error error
        | .ok payload => return (codec.fromSlice payload.1).mapError .invalidData

/-! ## A pipe that loses nothing -/

/-- The bytes in flight, and what each call does to them. -/
def handle : (c : Call) → Bytes → Reply c × Bytes
  | .writeAll bytes, pipe => (.ok (), pipe ++ bytes)
  | .flush, pipe => (.ok (), pipe)
  | .readExact count, pipe =>
      if enough : count ≤ pipe.length then
        (.ok ⟨pipe.take count, List.length_take_of_le enough⟩, pipe.drop count)
      else (.error .unexpectedEof, [])
  | .allocate _, pipe => ((), pipe)

theorem frameLength_eq (length : Nat) :
    frameLength length = if length ≤ maxFrameBytes then some length else none := by
  unfold frameLength maxFrameBytes
  by_cases fits : length ≤ 64 * 1024 * 1024
  · rw [if_pos (show length < 2 ^ 32 by omega), if_pos fits]
    simpa using fits
  · rw [if_neg fits]
    split
    · simpa using fits
    · rfl

/-- **Over a pipe, writing is what `Protocol.writeFrame` says.** -/
theorem run_writeFrame (codec : Codec T) (value : T) (pipe : Bytes) :
    (writeFrame codec value).run handle pipe =
      match Worker.writeFrame codec value with
      | .ok frame => (.ok (), pipe ++ frame)
      | .error error => (.error error, pipe) := by
  unfold writeFrame
  cases encoded : codec.toVec value with
  | error message =>
      unfold Worker.writeFrame
      rw [encoded]
      rfl
  | ok payload =>
      rw [writeFrame_encoded encoded]
      dsimp only
      rw [frameLength_eq]
      by_cases fits : payload.length ≤ maxFrameBytes
      · rw [if_pos fits, if_pos fits]
        show ((.ok () : Except FrameError Unit), (pipe ++ _) ++ payload) = _
        rw [List.append_assoc]
      · rw [if_neg fits, if_neg fits]
        rfl

/-- A read of so many bytes, on the pipe and in a frame. -/
theorem handle_readExact (count : Nat) (pipe : Bytes) :
    (∃ enough : (pipe.take count).length = count,
      Frame.readExact count pipe = .ok (pipe.take count, pipe.drop count) ∧
        handle (.readExact count) pipe = (.ok ⟨pipe.take count, enough⟩, pipe.drop count)) ∨
      (Frame.readExact count pipe = .error .unexpectedEof ∧
        handle (.readExact count) pipe = (.error .unexpectedEof, [])) := by
  by_cases enough : count ≤ pipe.length
  · exact .inl ⟨List.length_take_of_le enough, if_pos enough, dif_pos enough⟩
  · exact .inr ⟨if_neg enough, dif_neg enough⟩

/-- **Reading is what `Protocol.readFrame` says,** and what follows the frame is left. -/
theorem run_readFrame (codec : Codec T) (pipe : Bytes) :
    ∃ left, (readFrame codec).run handle pipe =
      match Worker.readFrame codec pipe with
      | .ok (value, rest) => (.ok value, rest)
      | .error error => (.error error, left) := by
  unfold readFrame Worker.readFrame Frame.read
  have width : frameFormat.width = 4 := rfl
  rw [width, Prog.bind_eq, Prog.perform_bind, Prog.run_call]
  rcases handle_readExact 4 pipe with ⟨_, first, asked⟩ | ⟨first, asked⟩
  · rw [first, asked, ok_bind]
    dsimp only
    by_cases long : maxFrameBytes < Frame.ofLittleEndian (pipe.take 4)
    · rw [if_pos long, if_pos (show frameFormat.limit < _ from long)]
      exact ⟨pipe.drop 4, rfl⟩
    · rw [if_neg long, if_neg (show ¬frameFormat.limit < _ from long), Prog.bind_eq,
        Prog.perform_bind, Prog.run_call]
      generalize Frame.ofLittleEndian (pipe.take 4) = length
      show ∃ left, (Prog.call (.readExact length) _).run handle (pipe.drop 4) = _
      rw [Prog.run_call]
      rcases handle_readExact length (pipe.drop 4) with ⟨_, second, filled⟩ | ⟨second, filled⟩
      · rw [second, filled]
        refine ⟨(pipe.drop 4).drop length, ?_⟩
        have passed : (Except.ok ((pipe.drop 4).take length, (pipe.drop 4).drop length) :
            Except Frame.Failure (Bytes × Bytes)).mapError frameError = .ok _ := rfl
        rw [passed, ok_bind]
        dsimp only
        rw [Prog.ret_bind]
        dsimp only
        cases codec.fromSlice ((pipe.drop 4).take length) with
        | error message => rfl
        | ok value => rfl
      · rw [second, filled]
        exact ⟨[], rfl⟩
  · rw [first, asked]
    exact ⟨[], rfl⟩

/-! ## What is allocated -/

abbrev Log := List (Prog.Event Call Reply)

/-- What a run has allocated for payloads. -/
def allocated (log : Log) : Nat :=
  (log.map fun event => match event with
    | ⟨.allocate bytes, _⟩ => bytes
    | _ => 0).sum

@[simp] theorem allocated_append (past more : Log) :
    allocated (past ++ more) = allocated past + allocated more := by
  simp [allocated]

section Allocation

variable {S : Type} {step : (c : Call) → S → Reply c → S → Prop}

/-- Calls that allocate nothing leave the sum as it is. -/
theorem allocated_kept {α : Type} {p : PipeProg α} {limit : Nat} {s s' : S × Log}
    (calls : p.Calls fun c => ∀ bytes, c ≠ .allocate bytes) (start : allocated s.2 ≤ limit)
    (begun : p.Begun (Prog.logged step) s s') : allocated s'.2 ≤ limit := by
  refine begun.keeps (fun s => allocated s.2 ≤ limit) ?_ calls start
  rintro c s reply s' idle within ⟨_, written⟩
  rw [written, allocated_append]
  cases c with
  | allocate bytes => exact absurd rfl (idle bytes)
  | _ => exact within

/-- Whatever the reader is given, at every point of its run. -/
theorem readFrame_allocated (codec : Codec T) {s s' : S} {log : Log}
    (begun : (readFrame codec).Begun (Prog.logged step) (s, []) (s', log)) :
    allocated log ≤ maxFrameBytes := by
  have nothing : allocated [] ≤ maxFrameBytes := Nat.zero_le _
  rcases begun with same | ⟨header, ⟨s1, log1⟩, ⟨_, written⟩, begun⟩
  · exact (Prod.mk.inj same).2 ▸ nothing
  · obtain rfl : log1 = [⟨.readExact 4, header⟩] := written
    cases header with
    | error error => exact (Prod.mk.inj begun).2 ▸ nothing
    | ok header =>
        dsimp only [Prog.ret_bind] at begun
        split at begun
        · exact (Prod.mk.inj begun).2 ▸ nothing
        · rename_i short
          rcases begun with same | ⟨reply, mid, ⟨_, written⟩, begun⟩
          · exact (Prod.mk.inj same).2 ▸ nothing
          · have bounded : allocated mid.2 ≤ maxFrameBytes := by
              rw [written]
              simpa [allocated] using Nat.le_of_not_lt short
            refine allocated_kept ?_ bounded begun
            refine ⟨?_, fun payload => ?_⟩
            · intro bytes same
              cases same
            · cases payload <;> trivial

end Allocation

/-! ## Sequences -/

/-- The pipe after the values have been written to it, one after another. -/
def sendAll (codec : Codec T) : List T → Bytes → Except FrameError Bytes
  | [], pipe => .ok pipe
  | value :: rest, pipe =>
      match (writeFrame codec value).run handle pipe with
      | (.ok (), pipe) => sendAll codec rest pipe
      | (.error error, _) => .error error

/-- That many frames read, one after another, and what is left. -/
def receiveAll (codec : Codec T) : Nat → Bytes → Except FrameError (List T × Bytes)
  | 0, pipe => .ok ([], pipe)
  | count + 1, pipe =>
      match (readFrame codec).run handle pipe with
      | (.error error, _) => .error error
      | (.ok value, pipe) => do
          let (values, pipe) ← receiveAll codec count pipe
          return (value :: values, pipe)

/-! ## The two ends -/

/-- serde writes the value as this text and reads the text as the value. -/
def RoundTrips (codec : Codec T) (value : T) (payload : Bytes) : Prop :=
  codec.toVec value = .ok payload ∧ codec.fromSlice payload = .ok value

/-- A payload behind its length in four bytes. -/
abbrev IsFrame (payload frame : Bytes) : Prop := Frame.IsFrame frameFormat payload frame

/-- No frame of this payload is read; one too long for four bytes has none. -/
def Refused (codec : Codec T) (payload : Bytes) : Prop :=
  ∀ frame, IsFrame payload frame → ∃ error, ((readFrame codec).run handle frame).1 = .error error

variable {codec : Codec T} {value : T} {payload : Bytes}

theorem send_receive (trips : RoundTrips codec value payload)
    (fits : payload.length ≤ maxFrameBytes) : ∃ frame, IsFrame payload frame ∧
      (∀ pipe, (writeFrame codec value).run handle pipe = (.ok (), pipe ++ frame)) ∧
      ∀ rest, (readFrame codec).run handle (frame ++ rest) = (.ok value, rest) := by
  have framed : IsFrame payload (Frame.littleEndian 4 payload.length ++ payload) :=
    Frame.isFrame_littleEndian (Nat.lt_of_le_of_lt fits frameFormat.fits)
  refine ⟨_, framed, fun pipe => ?_, fun rest => ?_⟩
  · rw [run_writeFrame, writeFrame_encoded trips.1, if_pos fits]
  · obtain ⟨left, read⟩ := run_readFrame codec (Frame.littleEndian 4 payload.length ++ payload ++ rest)
    rw [readFrame_isFrame trips.2 framed fits rest] at read
    exact read

/-- Written frames are read in the order they were written. -/
theorem sendAll_receiveAll {values : List T}
    (trips : ∀ value ∈ values, ∃ payload, RoundTrips codec value payload ∧
      payload.length ≤ maxFrameBytes) :
    ∃ frames, (∀ pipe, sendAll codec values pipe = .ok (pipe ++ frames)) ∧
      ∀ rest, receiveAll codec values.length (frames ++ rest) = .ok (values, rest) := by
  induction values with
  | nil => exact ⟨[], fun pipe => by rw [List.append_nil]; rfl, fun rest => rfl⟩
  | cons value others ih =>
      obtain ⟨payload, trip, fits⟩ := trips value (List.mem_cons_self ..)
      obtain ⟨frame, _, written, read⟩ := send_receive trip fits
      obtain ⟨frames, sent, received⟩ := ih fun other inside =>
        trips other (List.mem_cons_of_mem _ inside)
      refine ⟨frame ++ frames, fun pipe => ?_, fun rest => ?_⟩
      · rw [sendAll, written]
        dsimp only
        rw [sent, List.append_assoc]
      · rw [List.length_cons, receiveAll, List.append_assoc, read]
        dsimp only
        rw [received]
        rfl

/-- Bytes that hold no frame within the limit are an error. -/
theorem read_refused {pipe : Bytes} {failure : Frame.Failure} (codec : Codec T)
    (refused : Frame.read frameFormat pipe = .error failure) :
    ∃ error, ((readFrame codec).run handle pipe).1 = .error error := by
  have failed : Worker.readFrame codec pipe = .error (frameError failure) := by
    unfold Worker.readFrame
    rw [refused]
    rfl
  obtain ⟨left, read⟩ := run_readFrame codec pipe
  exact ⟨frameError failure, by rw [read, failed]⟩

/-- A writer that fails has written nothing. -/
theorem write_error {error : FrameError} {pipe : Bytes}
    (failed : ((writeFrame codec value).run handle pipe).1 = .error error) :
    ((writeFrame codec value).run handle pipe).2 = pipe := by
  rw [run_writeFrame] at failed ⊢
  split
  · rename_i written
    rw [written] at failed
    cases failed
  · rfl

/-- **The writer fails on what the reader would refuse.** -/
theorem write_fails_iff (trips : RoundTrips codec value payload) (pipe : Bytes) :
    (∃ error, ((writeFrame codec value).run handle pipe).1 = .error error) ↔
      Refused codec payload := by
  by_cases fits : payload.length ≤ maxFrameBytes
  · obtain ⟨frame, framed, written, read⟩ := send_receive trips fits
    have read := read []
    rw [List.append_nil] at read
    rw [written]
    constructor
    · rintro ⟨error, failed⟩
      cases failed
    · intro refused
      obtain ⟨error, failed⟩ := refused frame framed
      rw [read] at failed
      cases failed
  · refine iff_of_true ⟨_, by rw [run_writeFrame, writeFrame_encoded trips.1, if_neg fits]⟩ ?_
    intro frame framed
    have long := Frame.read_isFrame framed []
    rw [if_pos (show frameFormat.limit < _ from Nat.lt_of_not_le fits), List.append_nil] at long
    exact read_refused codec long

theorem read_cut {frame cut : Bytes} (codec : Codec T) (framed : IsFrame payload frame) (kept : cut <+: frame)
    (strict : cut ≠ frame) : ∃ error, ((readFrame codec).run handle cut).1 = .error error := by
  obtain ⟨failure, refused⟩ := Frame.read_truncated framed kept strict
  exact read_refused codec refused

/-- **The frame codec.**  What is written is read, in order and whatever follows; the two ends
refuse the same values; a frame cut short is an error; and the reader allocates no more than
the limit, whatever it is sent. -/
theorem frame_codec (codec : Codec T) :
    (∀ value payload, RoundTrips codec value payload → payload.length ≤ maxFrameBytes →
      ∃ frame, IsFrame payload frame ∧
        (∀ pipe, (writeFrame codec value).run handle pipe = (.ok (), pipe ++ frame)) ∧
        ∀ rest, (readFrame codec).run handle (frame ++ rest) = (.ok value, rest)) ∧
    (∀ values : List T, (∀ value ∈ values, ∃ payload, RoundTrips codec value payload ∧
        payload.length ≤ maxFrameBytes) →
      ∃ frames, (∀ pipe, sendAll codec values pipe = .ok (pipe ++ frames)) ∧
        ∀ rest, receiveAll codec values.length (frames ++ rest) = .ok (values, rest)) ∧
    (∀ value payload, RoundTrips codec value payload → ∀ pipe,
      ((∃ error, (writeFrame codec value).run handle pipe = (.error error, pipe)) ↔
        Refused codec payload) ∧
      ∀ error, ((writeFrame codec value).run handle pipe).1 = .error error →
        ((writeFrame codec value).run handle pipe).2 = pipe) ∧
    (∀ payload frame cut, IsFrame payload frame → cut <+: frame → cut ≠ frame →
      ∃ error, ((readFrame codec).run handle cut).1 = .error error) ∧
    ∀ (S : Type) (step : (c : Call) → S → Reply c → S → Prop) (s s' : S) (log : Log),
      (readFrame codec).Begun (Prog.logged step) (s, []) (s', log) →
      allocated log ≤ maxFrameBytes := by
  refine ⟨fun _ _ => send_receive, fun _ => sendAll_receiveAll, fun value payload trips pipe => ?_,
    fun _ _ _ => read_cut codec, fun _ _ _ _ _ => readFrame_allocated codec⟩
  refine ⟨?_, fun _ => write_error⟩
  rw [← write_fails_iff trips pipe]
  constructor
  · rintro ⟨error, failed⟩
    exact ⟨error, by rw [failed]⟩
  · rintro ⟨error, failed⟩
    exact ⟨error, Prod.ext failed (write_error failed)⟩

/-- What serde makes of the one result that carries nothing. -/
def internalText : Bytes := Json.utf8 "\x7b\"status\":\"internal\"\x7d"

def internalCodec : Codec JobResult where
  toVec
    | .internal => .ok internalText
    | _ => .error "no codec"
  fromSlice bytes := if bytes = internalText then .ok .internal else .error "expected value"

theorem frame_codec_internal : ∃ frame,
    (writeFrame internalCodec .internal).run handle [] = (.ok (), frame) ∧
      (readFrame internalCodec).run handle (frame ++ [1, 2]) = (.ok .internal, [1, 2]) := by
  have decoded : internalCodec.fromSlice internalText = .ok .internal := by
    simp only [internalCodec, if_true]
  have trips : RoundTrips internalCodec .internal internalText := ⟨rfl, decoded⟩
  obtain ⟨frame, _, written, read⟩ :=
    (frame_codec internalCodec).1 .internal internalText trips (by decide +kernel)
  exact ⟨frame, written [], read [1, 2]⟩

end TypstMcp.Worker.Pipe
