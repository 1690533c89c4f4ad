/-
Worker.Protocol -- the job a worker is sent, and the frame it travels in

`Codec` stands for `serde_json` at one type; what is asked of it is that a value is
read back from its own text.
-/
import TypstMcp.Bundle.Files
import TypstMcp.Theory.Checked
import TypstMcp.Theory.Frame

namespace TypstMcp.Worker

open TypstMcp.Bundle TypstMcp.Theory

set_option autoImplicit false

/-! ## The job -/

/-- How the worker reconstructs a staged bundle file. -/
inductive JobFileKind
  | text
  | binary
  deriving DecidableEq, Repr

/-- One validated virtual file and its parent-created staging path. -/
structure JobFile where
  path : String
  source : Path
  kind : JobFileKind
  deriving DecidableEq, Repr

/-- Bounds the worker enforces on itself. -/
structure JobLimits where
  maxBundleBytes : Nat := 8 * 1024 * 1024
  maxPages : Nat := 200
  previewPages : List Nat := [1]
  previewScaleMillis : Nat := 1000
  previewMaxPx : Nat := 2000
  memoryBytes : Nat := 512 * 1024 * 1024
  deriving DecidableEq, Repr

/-- Everything a worker needs to produce one document. -/
structure Job where
  main : String
  files : List JobFile
  inputs : BTreeMap String String
  fontDirs : List Path
  outputDir : Path
  limits : JobLimits
  deriving DecidableEq

/-! ## Frames -/

/-- Refuse to even allocate for a frame larger than this. -/
def maxFrameBytes : Nat := 64 * 1024 * 1024

/-- A `u32` length before the payload. -/
def frameFormat : Frame.Format where
  width := 4
  limit := maxFrameBytes
  fits := by decide

/-- What `serde_json` does at a type. -/
structure Codec (T : Type) where
  toVec : T → Except String Bytes
  fromSlice : Bytes → Except String T

/-- A value is read back from its own text. -/
def Codec.Lossless {T : Type} (codec : Codec T) : Prop :=
  ∀ value payload, codec.toVec value = .ok payload → codec.fromSlice payload = .ok value

inductive FrameError
  | invalidData (message : String)
  | unexpectedEof
  deriving DecidableEq, Repr

def frameError : Frame.Failure → FrameError
  | .tooLong bytes =>
      .invalidData ("frame of " ++ toString bytes ++ " bytes exceeds the " ++
        toString maxFrameBytes ++ " byte limit")
  | .unexpectedEof => .unexpectedEof

variable {T : Type}

/-- Write a length-prefixed JSON frame. -/
def writeFrame (codec : Codec T) (value : T) : Except FrameError Bytes := do
  let payload ← (codec.toVec value).mapError .invalidData
  (Frame.write frameFormat payload).mapError frameError

/-- Read a length-prefixed JSON frame, and what follows it. -/
def readFrame (codec : Codec T) (input : Bytes) : Except FrameError (T × Bytes) := do
  let (payload, rest) ← (Frame.read frameFormat input).mapError frameError
  let value ← (codec.fromSlice payload).mapError .invalidData
  return (value, rest)

/-- What is written for a value, by the length of its text. -/
theorem writeFrame_encoded {codec : Codec T} {value : T} {payload : Bytes}
    (encoded : codec.toVec value = .ok payload) :
    writeFrame codec value =
      if payload.length ≤ maxFrameBytes then .ok (Frame.littleEndian 4 payload.length ++ payload)
      else .error (frameError (.tooLong payload.length)) := by
  unfold writeFrame
  rw [encoded]
  show (Frame.write frameFormat payload).mapError frameError = _
  by_cases fits : payload.length ≤ maxFrameBytes
  · rw [Frame.write, if_pos (show payload.length ≤ frameFormat.limit from fits), if_pos fits]
    rfl
  · rw [Frame.write, if_neg (show ¬payload.length ≤ frameFormat.limit from fits), if_neg fits]
    rfl

/-- A value whose text fits is written. -/
theorem writeFrame_ok {codec : Codec T} {value : T} {payload : Bytes}
    (encoded : codec.toVec value = .ok payload) (fits : payload.length ≤ maxFrameBytes) :
    ∃ frame, writeFrame codec value = .ok frame :=
  ⟨_, by rw [writeFrame_encoded encoded, if_pos fits]⟩

/-- A frame is read as its payload is, and what follows it is left. -/
theorem readFrame_isFrame {codec : Codec T} {value : T} {payload frame : Bytes}
    (decoded : codec.fromSlice payload = .ok value) (framed : Frame.IsFrame frameFormat payload frame)
    (fits : payload.length ≤ maxFrameBytes) (rest : Bytes) :
    readFrame codec (frame ++ rest) = .ok (value, rest) := by
  have read : Frame.read frameFormat (frame ++ rest) = .ok (payload, rest) := by
    rw [Frame.read_isFrame framed, if_neg (show ¬frameFormat.limit < _ from Nat.not_lt.2 fits)]
  exact bind_eq_ok.2 ⟨(payload, rest), mapError_eq_ok.2 read,
    bind_eq_ok.2 ⟨value, mapError_eq_ok.2 decoded, rfl⟩⟩

/-- **What is written is what is read.** -/
theorem readFrame_writeFrame {codec : Codec T} {value : T} {frame : Bytes}
    (lossless : codec.Lossless) (written : writeFrame codec value = .ok frame) (rest : Bytes) :
    readFrame codec (frame ++ rest) = .ok (value, rest) := by
  obtain ⟨payload, encoded, written⟩ := bind_eq_ok.1 written
  have read := Frame.read_write (mapError_eq_ok.1 written) rest
  have decoded := lossless value payload (mapError_eq_ok.1 encoded)
  exact bind_eq_ok.2 ⟨(payload, rest), mapError_eq_ok.2 read,
    bind_eq_ok.2 ⟨value, mapError_eq_ok.2 decoded, rfl⟩⟩

end TypstMcp.Worker
