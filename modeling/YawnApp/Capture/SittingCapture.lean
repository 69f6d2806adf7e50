import YawnApp.Capture.Coordinator

set_option autoImplicit false

/-!
# The capture of a sitting

`SittingCaptureCoordinator` streams the microphone to a pipe.  Its controls are jobs
of one serial queue, its `BoundedPipeWriter` writes from a second one, and the
microphone calls `receive` from one thread, block after block, and `recordSource`
from others.

A step is a section under one of the two locks, a job put on a queue, one system
call of the writer, or the start or the return of a call into the microphone.  What
only the control queue changes it reads together with its next section.
-/

namespace YawnApp.Capture

structure SittingCaptureReceipt where
  micSamples : Nat
deriving DecidableEq

inductive SittingCaptureUpdate where
  | recording
  | finalized (receipt : SittingCaptureReceipt)
  | failed (fault : MeetingCaptureFault)
  | interrupted
deriving DecidableEq

namespace SittingCapture

/-- What `init` keeps of its arguments. -/
structure Settings where
  maxPendingBytes : Nat
  /-- `writeStallSeconds` in nanoseconds -/
  writeStall : Nat
  /-- `writeStallSeconds` as it stands in a text -/
  writeStallSeconds : String
  positive : 0 < maxPendingBytes

def unavailable (detail : String) : MeetingCaptureFault :=
  ⟨"sitting_stream_unavailable", none, detail⟩

/-- The guards of `init`; `isDescriptor` and `isPipe` are what `fcntl` and `fstat`
answer. -/
def init (leg : MeetingCaptureLeg) (isDescriptor isPipe : Bool) (maxPendingBytes : Int)
    (writeStall : Nat) (writeStallSeconds : String) : Except MeetingCaptureFault Settings :=
  if leg ≠ .mic then
    .error ⟨"source_leg_mismatch", none, "sitting capture records the microphone leg only"⟩
  else if h : maxPendingBytes > 0 then
    if isDescriptor = false then .error (unavailable "sitting audio descriptor is invalid")
    else if isPipe = false then
      .error (unavailable "sitting audio descriptor must be a pipe, never a file this helper owns")
    else .ok ⟨maxPendingBytes.toNat, writeStall, writeStallSeconds, by omega⟩
  else .error ⟨"invalid_queue_limit", none, "sitting stream limit must be positive"⟩

/-- The arguments of `finish`. -/
structure Ending where
  promote : Bool
  interrupted : Bool
  failure : Option MeetingCaptureFault

/-- Where the control queue is in its job. -/
inductive Control where
  | idle
  /-- `activate`, in the `start` of the microphone -/
  | starting
  /-- `markReady`, before it emits -/
  | announcing
  /-- `finish`, in the `stop` of the microphone -/
  | stopping (ending : Ending)
  /-- `finish`, before it reads the stored fault -/
  | deciding (ending : Ending)
  /-- `finish`, before the `finish` of the writer -/
  | draining (ending : Ending) (terminalFault : Option MeetingCaptureFault)
  /-- `finish` of the writer, in `queue.sync` -/
  | flushing (ending : Ending) (terminalFault : Option MeetingCaptureFault)
  /-- `finish`, before it reads the fault of the writer -/
  | settling (ending : Ending) (terminalFault : Option MeetingCaptureFault) (samples : Nat)
  /-- `finish`, before its last section -/
  | closing (ending : Ending) (terminalFault : Option MeetingCaptureFault)
      (receipt : Option SittingCaptureReceipt)
  /-- `finish`, before it emits -/
  | emitting (ending : Ending) (terminalFault : Option MeetingCaptureFault)
      (receipt : Option SittingCaptureReceipt)

/-- The jobs of the control queue. -/
inductive Job where
  | activate
  | markReady
  | fail (fault : MeetingCaptureFault)
  | finish (ending : Ending)

/-- Where a thread is in `record`: before its section, or before it schedules the
failure. -/
inductive Recording where
  | storing (fault : MeetingCaptureFault)
  | scheduling (fault : MeetingCaptureFault)

/-- Where the thread of a block is in `receive`. -/
inductive Delivery where
  /-- before it schedules `markReady` -/
  | arming
  /-- in `append`, with whether the snapshot had a writer -/
  | appending (data : Bytes) (hasWriter : Bool)
  /-- in the `append` of the writer, before it queues the block -/
  | enqueuing (data : Bytes)
  | recording (recording : Recording)

/-- Where the queue of the writer is in its job. -/
inductive Writing where
  | idle
  /-- in `writeWholeBlock` -/
  | writing (data : Bytes) (written deadline : Nat)
  /-- before the section that ends the job -/
  | settling (data : Bytes) (alreadyFailed : Bool) (failure : Option MeetingCaptureFault)
  /-- in `onFailure` -/
  | reporting (recording : Recording)

/-- What a run is told by: the microphone is ready, a `receive` begins, the `stop` of
the microphone has returned. -/
inductive Note where
  | ready
  | block (data : Bytes)
  | stopped
deriving DecidableEq

structure BoundedPipeWriter where
  pendingBytes : Nat
  frames : Nat
  storedFault : Option MeetingCaptureFault
  closing : Bool
  closed : Bool
  queue : List Bytes
  thread : Writing

/-- A writer that was just opened. -/
def BoundedPipeWriter.opened : BoundedPipeWriter where
  pendingBytes := 0
  frames := 0
  storedFault := none
  closing := false
  closed := false
  queue := []
  thread := .idle

end SittingCapture

/-- The coordinator with its threads.  `live` says that the microphone may begin
another callback, `block` and `faults` are the callbacks that have not returned.
`pipe` are the bytes written, `room` is what the pipe takes before it is full. -/
structure SittingCapture where
  state : MeetingCaptureState
  stopDraining : Bool
  storedFault : Option MeetingCaptureFault
  hasWriter : Bool
  writer : SittingCapture.BoundedPipeWriter
  control : SittingCapture.Control
  jobs : List SittingCapture.Job
  live : Bool
  block : Option SittingCapture.Delivery
  faults : List SittingCapture.Recording
  pipe : Bytes
  room : Nat
  now : Nat
  updates : List SittingCaptureUpdate
  log : List SittingCapture.Note

namespace SittingCapture

def initial (room now : Nat) : SittingCapture where
  state := .paused
  stopDraining := false
  storedFault := none
  hasWriter := false
  writer := .opened
  control := .idle
  jobs := []
  live := false
  block := none
  faults := []
  pipe := []
  room := room
  now := now
  updates := []
  log := []

/-! ## The control queue -/

/-- `controlQueue.async`, and the entry of `controlQueue.sync`. -/
def schedule (s : SittingCapture) (job : Job) : SittingCapture := { s with jobs := s.jobs ++ [job] }

/-- `finish`, its first section. -/
def beginFinish (s : SittingCapture) (ending : Ending) : SittingCapture :=
  if s.state = .terminal then s
  else
    { s with
      state := .stopping
      stopDraining := if s.hasWriter then true else s.stopDraining
      control := .stopping ending }

/-- `fail`. -/
def fail (s : SittingCapture) (fault : MeetingCaptureFault) : SittingCapture :=
  if s.state = .terminal then s else s.beginFinish ⟨false, false, some fault⟩

def invalidStart : MeetingCaptureFault :=
  ⟨"invalid_start", none, "sitting start is valid only while paused"⟩

/-- `activate`, up to the `start` of the microphone. -/
def activate (s : SittingCapture) : SittingCapture :=
  if s.state = .paused then { s with state := .arming, control := .starting, live := true }
  else s.fail invalidStart

/-- `markReady`, up to the section that starts the recording; `opened` is what the
initializer of the writer throws. -/
def markReady (s : SittingCapture) (opened : Except MeetingCaptureFault Unit) : SittingCapture :=
  if s.state ≠ .arming then s
  else
    match opened with
    | .error fault => s.fail fault
    | .ok () =>
      { s with
        writer := .opened
        hasWriter := true
        state := .recording
        control := .announcing
        log := s.log ++ [.ready] }

/-- What the calls of a job throw: the `start` of the microphone, and the initializer
of the writer. -/
structure Answers where
  started : Except MeetingCaptureFault Unit
  opened : Except MeetingCaptureFault Unit

def runJob (s : SittingCapture) (answers : Answers) : Job → SittingCapture
  | .activate => s.activate
  | .markReady => s.markReady answers.opened
  | .fail fault => s.fail fault
  | .finish ending => s.beginFinish ending

/-- `onUpdate`. -/
def emit (s : SittingCapture) (update : SittingCaptureUpdate) : SittingCapture :=
  { s with updates := s.updates ++ [update] }

def notReady : MeetingCaptureFault :=
  ⟨"capture_not_ready", none, "sitting stopped before the microphone was ready"⟩

/-- The update of the end of `finish`. -/
def terminalUpdate (ending : Ending) (terminalFault : Option MeetingCaptureFault)
    (receipt : Option SittingCaptureReceipt) : SittingCaptureUpdate :=
  if ending.interrupted then .interrupted
  else
    match terminalFault with
    | some fault => .failed fault
    | none =>
      match receipt with
      | some receipt => if ending.promote then .finalized receipt else .failed notReady
      | none => .failed notReady

/-- The queue of the writer has nothing left to do. -/
def BoundedPipeWriter.Drained (w : BoundedPipeWriter) : Prop :=
  w.queue = [] ∧ match w.thread with | .idle => True | _ => False

instance (w : BoundedPipeWriter) : Decidable w.Drained :=
  match h : w.thread with
  | .idle => decidable_of_iff (w.queue = []) (by simp [BoundedPipeWriter.Drained, h])
  | .writing .. => isFalse fun hw => by simp [BoundedPipeWriter.Drained, h] at hw
  | .settling .. => isFalse fun hw => by simp [BoundedPipeWriter.Drained, h] at hw
  | .reporting .. => isFalse fun hw => by simp [BoundedPipeWriter.Drained, h] at hw

/-- The microphone has returned from its last callback. -/
def Silent (s : SittingCapture) : Prop :=
  s.live = false ∧ s.block.isNone = true ∧ s.faults.isEmpty = true

instance (s : SittingCapture) : Decidable s.Silent :=
  inferInstanceAs (Decidable (_ ∧ _ ∧ _))

/-- The next section of the control queue.  It waits for the `stop` of the microphone
and for the queue of the writer. -/
def advance (s : SittingCapture) (answers : Answers) : SittingCapture :=
  match s.control with
  | .idle =>
    match s.jobs with
    | [] => s
    | job :: rest => ({ s with jobs := rest }).runJob answers job
  | .starting =>
    match answers.started with
    | .error fault => ({ s with control := .idle }).fail fault
    | .ok () => { s with control := .idle }
  | .announcing => { s.emit .recording with control := .idle }
  | .stopping ending =>
    if s.Silent then
      { s with stopDraining := false, control := .deciding ending, log := s.log ++ [.stopped] }
    else s
  | .deciding ending =>
    let terminalFault := ending.failure.or s.storedFault
    { s with
      control := if s.hasWriter then .draining ending terminalFault
        else .closing ending terminalFault none }
  | .draining ending terminalFault =>
    { s with
      writer := { s.writer with closing := true }
      control := .flushing ending terminalFault }
  | .flushing ending terminalFault =>
    if s.writer.Drained then
      { s with
        writer := { s.writer with closed := true }
        control := .settling ending terminalFault s.writer.frames }
    else s
  | .settling ending terminalFault samples =>
    { s with control := .closing ending (terminalFault.or s.writer.storedFault) (some ⟨samples⟩) }
  | .closing ending terminalFault receipt =>
    { s with
      hasWriter := false
      state := .terminal
      control := .emitting ending terminalFault receipt }
  | .emitting ending terminalFault receipt =>
    { s.emit (terminalUpdate ending terminalFault receipt) with control := .idle }

/-! ## Faults -/

/-- The next section of `record`, and where it leaves the thread. -/
def record (s : SittingCapture) : Recording → SittingCapture × Option Recording
  | .storing fault =>
    if s.state = .terminal then (s, none)
    else
      ({ s with storedFault := s.storedFault.or (some fault) },
        if s.state = .stopping then none else some (.scheduling fault))
  | .scheduling fault => (s.schedule (.fail fault), none)

/-- `recordSource`, its first section. -/
def recordSource (s : SittingCapture) (fault : MeetingCaptureFault) : SittingCapture :=
  if s.state ≠ .stopping ∨ s.stopDraining = true then
    { s with faults := s.faults ++ [.storing fault] }
  else s

/-- A callback that records a fault goes on. -/
def recordFault (s : SittingCapture) (index : Nat) : SittingCapture :=
  match s.faults[index]? with
  | none => s
  | some recording =>
    match s.record recording with
    | (s, some next) => { s with faults := s.faults.set index next }
    | (s, none) => { s with faults := s.faults.eraseIdx index }

/-! ## Blocks -/

/-- `receive`, up to its snapshot. -/
def receive (s : SittingCapture) (data : Bytes) : SittingCapture :=
  let s := { s with log := s.log ++ [.block data] }
  if data = [] then s
  else
    match s.state with
    | .arming => { s with block := some .arming }
    | .recording => { s with block := some (.appending data s.hasWriter) }
    | .stopping =>
      if s.stopDraining then { s with block := some (.appending data s.hasWriter) } else s
    | .paused | .suspending | .suspended | .resuming | .terminal => s

def invalidPCM : MeetingCaptureFault :=
  ⟨"invalid_pcm", some .mic, "normalized PCM must contain whole signed 16-bit samples"⟩

def streamOverflow : MeetingCaptureFault :=
  ⟨"sitting_stream_overflow", some .mic,
    "bounded sitting stream refused audio; the parent stopped draining"⟩

def writerOverflow (settings : Settings) : MeetingCaptureFault :=
  ⟨"sitting_stream_overflow", some .mic,
    s!"bounded sitting stream exceeded {settings.maxPendingBytes} bytes"⟩

/-- `append` of the writer, up to its section: the writer and whether it accepts. -/
def BoundedPipeWriter.append (settings : Settings) (w : BoundedPipeWriter) (data : Bytes) :
    BoundedPipeWriter × Bool :=
  if data = [] ∨ data.length % 2 ≠ 0 then (w, false)
  else if w.closing = true ∨ w.storedFault.isSome = true then (w, false)
  else if w.pendingBytes + data.length ≤ settings.maxPendingBytes then
    ({ w with pendingBytes := w.pendingBytes + data.length }, true)
  else ({ w with storedFault := some (writerOverflow settings) }, false)

/-- `append` of the coordinator, up to the section of the writer. -/
def append (settings : Settings) (s : SittingCapture) (data : Bytes) (hasWriter : Bool) :
    SittingCapture :=
  if data.length % 2 ≠ 0 ∨ hasWriter = false then
    { s with block := some (.recording (.storing invalidPCM)) }
  else
    match s.writer.append settings data with
    | (w, true) => { s with writer := w, block := some (.enqueuing data) }
    | (w, false) => { s with writer := w, block := some (.recording (.storing streamOverflow)) }

/-- The thread of the block goes on. -/
def deliver (settings : Settings) (s : SittingCapture) : SittingCapture :=
  match s.block with
  | none => s
  | some .arming => { s.schedule .markReady with block := none }
  | some (.appending data hasWriter) => s.append settings data hasWriter
  | some (.enqueuing data) =>
    { s with writer := { s.writer with queue := s.writer.queue ++ [data] }, block := none }
  | some (.recording recording) =>
    match s.record recording with
    | (s, next) => { s with block := next.map .recording }

/-! ## The queue of the writer -/

/-- What `write` answers, and `poll` if the pipe was full. -/
inductive WriteOutcome where
  | wrote (count : Nat)
  | interrupted
  | wouldBlock (pollErrno : Option Nat)
  | failed (errno : Nat)

def writeFailed (detail : String) : MeetingCaptureFault :=
  ⟨"sitting_stream_write_failed", some .mic, detail⟩

def stalled (settings : Settings) : MeetingCaptureFault :=
  writeFailed
    (s!"sitting stream reader stalled past {settings.writeStallSeconds}" ++ "s without draining")

def onThread (s : SittingCapture) (thread : Writing) : SittingCapture :=
  { s with writer := { s.writer with thread } }

/-- The test of the loop of `writeWholeBlock`. -/
def whileUnwritten (data : Bytes) (written deadline : Nat) : Writing :=
  if written < data.length then .writing data written deadline else .settling data false none

/-- One round of the loop of `writeWholeBlock`; a pipe writes no more than there is
to write and than it has room for. -/
def writeWholeBlock (settings : Settings) (s : SittingCapture) (data : Bytes)
    (written deadline : Nat) : WriteOutcome → SittingCapture
  | .wrote count =>
    if 0 < count ∧ written + count ≤ data.length ∧ count ≤ s.room then
      { s.onThread (whileUnwritten data (written + count) deadline) with
        pipe := s.pipe ++ (data.drop written).take count
        room := s.room - count }
    else s
  | .interrupted => s
  | .wouldBlock pollErrno =>
    if s.now < deadline then
      match pollErrno with
      | none => s
      | some errno =>
        s.onThread (.settling data false
          (some (writeFailed s!"sitting stream poll failed with errno {errno}")))
    else s.onThread (.settling data false (some (stalled settings)))
  | .failed errno =>
    s.onThread (.settling data false
      (some (writeFailed s!"sitting stream write failed with errno {errno}")))

/-- The section that ends a job of the writer. -/
def BoundedPipeWriter.settle (w : BoundedPipeWriter) (data : Bytes) (alreadyFailed : Bool)
    (failure : Option MeetingCaptureFault) : BoundedPipeWriter :=
  let w := { w with pendingBytes := w.pendingBytes - data.length, thread := .idle }
  match failure with
  | some failure =>
    if w.storedFault.isNone then
      { w with storedFault := some failure, thread := .reporting (.storing failure) }
    else w
  | none => if alreadyFailed then w else { w with frames := w.frames + data.length / 2 }

/-- The queue of the writer goes on. -/
def write (settings : Settings) (s : SittingCapture) (outcome : WriteOutcome) : SittingCapture :=
  match s.writer.thread with
  | .idle =>
    match s.writer.queue with
    | [] => s
    | data :: rest =>
      { s with
        writer := { s.writer with
          queue := rest
          thread := if s.writer.storedFault.isSome then .settling data true none
            else whileUnwritten data 0 (s.now + settings.writeStall) } }
  | .writing data written deadline => s.writeWholeBlock settings data written deadline outcome
  | .settling data alreadyFailed failure =>
    { s with writer := s.writer.settle data alreadyFailed failure }
  | .reporting recording =>
    match s.record recording with
    | (s, some next) => s.onThread (.reporting next)
    | (s, none) => s.onThread .idle

/-! ## Runs -/

/-- A control is called, the control queue goes on, the microphone begins a callback
or falls silent once it was told to stop, a callback goes on, the queue of the writer
goes on, time passes, the reader drains the pipe. -/
inductive Step where
  | activate
  | stop
  | interrupt
  | abort (fault : MeetingCaptureFault)
  | advance (answers : Answers)
  | receive (data : Bytes)
  | sourceFault (fault : MeetingCaptureFault)
  | silence
  | deliver
  | recordFault (index : Nat)
  | write (outcome : WriteOutcome)
  | tick (nanoseconds : Nat)
  | drain (count : Nat)

def step (settings : Settings) (s : SittingCapture) : Step → SittingCapture
  | .activate => s.schedule .activate
  | .stop => s.schedule (.finish ⟨true, false, none⟩)
  | .interrupt => s.schedule (.finish ⟨false, true, none⟩)
  | .abort fault => s.schedule (.finish ⟨false, false, some fault⟩)
  | .advance answers => s.advance answers
  | .receive data => if s.live = true ∧ s.block.isNone = true then s.receive data else s
  | .sourceFault fault => if s.live = true then s.recordSource fault else s
  | .silence =>
    match s.control with
    | .stopping _ => { s with live := false }
    | _ => s
  | .deliver => s.deliver settings
  | .recordFault index => s.recordFault index
  | .write outcome => s.write settings outcome
  | .tick nanoseconds => { s with now := s.now + nanoseconds }
  | .drain count => { s with room := s.room + count }

def run (settings : Settings) (s : SittingCapture) (steps : List Step) : SittingCapture :=
  steps.foldl (step settings) s

end SittingCapture

end YawnApp.Capture
