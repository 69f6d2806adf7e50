import YawnApp.SessionCore.Protocol
import YawnApp.Worker.SpeechReader

set_option autoImplicit false

/-!
# The progress of a transcription

`transcribe_legs` runs a speech helper on the microphone's audio and then one on the
system's.  A thread reads what the running helper reports and hands it to a
`TranscriptionProgress`, whose events go to the protocol stream through the emitter of
the request.  The main thread waits for a reader only so long: a reader can go on
after its leg, and even after the result of the request.

A step is what a thread does under one lock, or between two looks at what the threads
share.  The clock, the failures of `emit` and the outcome of a leg are given with it.
-/

namespace YawnApp.Worker

open YawnApp.SessionCore

inductive Leg where
  | mic
  | system
deriving DecidableEq

/-- What `_duration_seconds` accepts.  The header counts the bytes of the audio in
32 bits, two bytes to a frame. -/
structure Audio where
  frames : Nat
  positive : 0 < frames
  bounded : frames < 2 ^ 31

def Audio.duration (audio : Audio) : ℚ := audio.frames / 16000

/-- `_leg_ceiling`: `math.ceil` of the duration. -/
def Audio.ceiling (audio : Audio) : Nat := (audio.frames + 15999) / 16000

/-- What a run of `transcribe_legs` meets.  Progress is `none` where nobody listens or
a file cannot be measured; a leg measures its file again. -/
structure Setup where
  measured : Option (Leg → Audio)
  audio : Leg → Audio
  output : Leg → List UInt8

def Setup.ceiling (setup : Setup) (leg : Leg) : Nat :=
  match setup.measured with
  | none => 0
  | some audio => (audio leg).ceiling

def Setup.total (setup : Setup) : Nat := setup.ceiling .mic + setup.ceiling .system

/-- The seconds a leg starts at. -/
def Setup.base (setup : Setup) : Leg → Nat
  | .mic => 0
  | .system => setup.ceiling .mic

/-- The state of a `TranscriptionProgress`; `sent` is `none` for -1. -/
structure Progress where
  total : Nat
  high : Nat
  sent : Option Nat
  sentAt : Option ℚ
  off : Bool

/-- `TranscriptionProgress.__init__`. -/
def Progress.new (total : Nat) : Progress := ⟨total, 0, none, none, false⟩

/-- Where the thread that reads a helper is. -/
inductive ReaderAt where
  | unborn
  | reading
  /-- about to call `on_progress`: it has found its leg not closed -/
  | reporting (seconds : ℚ)
  | finished

structure ReaderThread where
  reader : Reader
  place : ReaderAt

/-- Where the main thread is. -/
inductive Main where
  /-- before `progress.start` -/
  | starting
  /-- in `transcribe_leg` -/
  | running (leg : Leg)
  /-- before the last section of `progress.leg_complete` -/
  | completing
  /-- before `progress.finish` -/
  | finishing
  /-- before the result of the request; with the leg that failed, if one did -/
  | ended (failed : Option Leg)
  | answered (failed : Option Leg)
deriving DecidableEq

/-- A frame of the request on the protocol stream.  A result has the digests of a
success. -/
inductive Frame where
  | measurement (done total : Nat)
  | heartbeat
  | result (digests : Option (List (String × String)))
deriving DecidableEq

def Frame.pair : Frame → Option (Nat × Nat)
  | .measurement done total => some (done, total)
  | _ => none

structure Speech where
  main : Main
  progress : Option Progress
  readers : Leg → ReaderThread
  closed : Leg → Bool
  emitter : Option (Nat × Nat)
  wire : List Frame

def Speech.initial (setup : Setup) : Speech where
  main := .starting
  progress := setup.measured.map fun _ => .new setup.total
  readers leg := ⟨.start (setup.output leg), .unborn⟩
  closed _ := false
  emitter := none
  wire := []

/-- What comes of writing a frame: it is written, or the call raises and the frame is
written or not. -/
inductive Emission where
  | returned
  | raised (written : Bool)
deriving DecidableEq

namespace Speech

/-! ## Events -/

/-- `emit_transcription_progress` sends a value that passes its own checks, and drops
another. -/
def emits (s : Speech) (done total : Nat) : Bool :=
  0 < total && done ≤ total && s.emitter.all fun sent => total == sent.2 && sent.1 ≤ done

/-- `emit_transcription_progress`, and whether it returns. -/
def emit (s : Speech) (done total : Nat) (emission : Emission) : Speech × Bool :=
  if ¬ s.emits done total then (s, true)
  else
    match emission with
    | .returned =>
      ({ s with wire := s.wire ++ [.measurement done total], emitter := some (done, total) }, true)
    | .raised true => ({ s with wire := s.wire ++ [.measurement done total] }, false)
    | .raised false => (s, false)

/-- The `interval` of `transcribe_legs`. -/
def interval : ℚ := 1

/-- `_publish`. -/
def publish (s : Speech) (done : Nat) (force : Bool) (now : ℚ) (emission : Emission) : Speech :=
  match s.progress with
  | none => s
  | some p =>
    if p.off then s
    else
      let p := { p with high := max p.high (min done p.total) }
      let s := { s with progress := some p }
      if p.sent.any fun sent => p.high ≤ sent then s
      else if ¬ force ∧ p.sentAt.any (fun sentAt => now - sentAt < interval) then s
      else
        let (s, returned) := s.emit p.high p.total emission
        if returned then
          { s with progress := some { p with sent := some p.high, sentAt := some now } }
        else { s with progress := some { p with off := true } }

/-! ## The reader threads -/

def setReader (s : Speech) (leg : Leg) (thread : ReaderThread) : Speech :=
  { s with readers := fun other => if other = leg then thread else s.readers other }

/-- A turn of the reader, to the next read or to `on_progress`.  It ends at the end of
the output, or when a read fails. -/
def read (setup : Setup) (s : Speech) (leg : Leg) (failed : Bool) : Speech :=
  let thread := s.readers leg
  match thread.place with
  | .reading =>
    if failed ∨ thread.reader.rest = [] then s.setReader leg { thread with place := .finished }
    else
      let (reader, seconds) := thread.reader.turn (setup.audio leg).duration
      match seconds with
      | some seconds =>
        if s.progress.isSome ∧ ¬ s.closed leg then s.setReader leg ⟨reader, .reporting seconds⟩
        else s.setReader leg ⟨reader, .reading⟩
      | none => s.setReader leg ⟨reader, .reading⟩
  | _ => s

/-- The callback that `progress.leg` returns. -/
def report (setup : Setup) (s : Speech) (leg : Leg) (now : ℚ) (emission : Emission) : Speech :=
  let thread := s.readers leg
  match thread.place with
  | .reporting seconds =>
    (s.setReader leg { thread with place := .reading }).publish
      (setup.base leg + min ⌊seconds⌋₊ (setup.ceiling leg)) false now emission
  | _ => s

/-! ## The main thread -/

/-- `transcribe_leg` starts the helper and its reader. -/
def startLeg (s : Speech) (leg : Leg) : Speech :=
  { s.setReader leg { s.readers leg with place := .reading } with main := .running leg }

/-- The main thread goes on where it publishes.  The wait in `leg_complete` before its
last section changes nothing. -/
def advance (setup : Setup) (s : Speech) (now : ℚ) (emission : Emission) : Speech :=
  match s.main with
  | .starting => (s.publish 0 true now emission).startLeg .mic
  | .completing => (s.publish (setup.ceiling .mic) true now emission).startLeg .system
  | .finishing =>
    match s.progress with
    | none => { s with main := .ended none }
    | some p => { s.publish p.total true now emission with main := .ended none }
  | _ => s

/-- The leg under way ends, whether its reader has ended or not. -/
def endLeg (s : Speech) (succeeded : Bool) : Speech :=
  match s.main with
  | .running leg =>
    let s := { s with closed := fun other => other = leg || s.closed other }
    if ¬ succeeded then { s with main := .ended (some leg) }
    else
      match leg with
      | .mic => { s with main := .completing }
      | .system => { s with main := .finishing }
  | _ => s

/-- The result of the request.  A leg that failed fails the request. -/
def finishRequest (s : Speech) (digests : Option (List (String × String))) : Speech :=
  match s.main with
  | .ended failed =>
    { s with
      main := .answered failed
      wire := s.wire ++ [.result (if failed.isSome then none else digests)] }
  | _ => s

/-- The heartbeat of the request is joined before its result. -/
def heartbeat (s : Speech) : Speech :=
  match s.main with
  | .answered _ => s
  | _ => { s with wire := s.wire ++ [.heartbeat] }

inductive Step where
  | advance (now : ℚ) (emission : Emission)
  | endLeg (succeeded : Bool)
  | finishRequest (digests : Option (List (String × String)))
  | heartbeat
  | read (leg : Leg) (failed : Bool)
  | report (leg : Leg) (now : ℚ) (emission : Emission)

def step (setup : Setup) (s : Speech) : Step → Speech
  | .advance now emission => s.advance setup now emission
  | .endLeg succeeded => s.endLeg succeeded
  | .finishRequest digests => s.finishRequest digests
  | .heartbeat => s.heartbeat
  | .read leg failed => s.read setup leg failed
  | .report leg now emission => s.report setup leg now emission

def run (setup : Setup) (s : Speech) (steps : List Step) : Speech := steps.foldl (step setup) s

/-- The pairs that were sent. -/
def measurements (s : Speech) : List (Nat × Nat) := s.wire.filterMap Frame.pair

end Speech

/-! ## The stream at its reader -/

structure Request where
  requestId : Uuid
  meetingId : Uuid

/-- What the desktop makes of a frame. -/
def Frame.call (request : Request) : Frame → TrackerCall
  | .measurement done total =>
    .transcriptionProgress ⟨request.requestId, request.meetingId, .natural done, .natural total⟩
  | .heartbeat => .progress ⟨request.requestId, .captureState, .transcribing, request.meetingId⟩
  | .result (some digests) => .terminal ⟨request.requestId, true, none, none, digests⟩
  | .result none => .terminal ⟨request.requestId, false, some .protocolFailure, some false, []⟩

/-- The tracker when it has read frames. -/
def hear (request : Request) (tracker : RequestTracker) (frames : List Frame) : RequestTracker :=
  frames.foldl (fun tracker frame => (tracker.handle (frame.call request)).2) tracker

end YawnApp.Worker
