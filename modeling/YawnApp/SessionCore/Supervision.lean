import YawnApp.SessionCore.Protocol
import YawnApp.SessionCore.WorkerFrames

set_option autoImplicit false

/-!
# Supervised requests (`supervision.rs`)

Three threads work on one worker.  The dispatcher reads frames and puts what the
tracker admits into a bounded queue, a monitor counts what the worker writes to
its standard error, and the caller of `request_observing` writes a command and
takes from the queue until the result is there.  A fault is recorded once, and
whoever records it starts the cleanup, which is a thread of its own.

A step of a thread touches at most one thing that another thread can touch: a
lock, an atomic flag, the queue or the clock.  A run is a list of such steps in
any order.  What the operating system, the callbacks and the cleanup answer
comes with the step.
-/

namespace YawnApp.SessionCore

open YawnApp.Foundation

def maxQueuedOutputs : Nat := 32

def maxProgressEventsPerSecond : Nat := 16

def maxStderrBytes : Nat := 16 * 1024

/-- A second, in the unit of the clock. -/
def second : Nat := 1000000000

/-! ## Frames and faults -/

/-- `ProtocolError`, with what the frame reader, the rate and the queue refuse. -/
inductive WireError where
  | protocol (e : ProtocolError)
  | frameTooLarge
  | outputQueueOverflow
  | eventRateExceeded
deriving DecidableEq

inductive WorkerOutput where
  | progress (frame : WorkerProgress)
  | transcriptionProgress (frame : WorkerTranscriptionProgress)
  | result (result : WorkerResult)

/-- The request that a frame names. -/
def WorkerOutput.requestId : WorkerOutput → Uuid
  | .progress frame => frame.requestId
  | .transcriptionProgress frame => frame.requestId
  | .result final => final.requestId

/-- The text of frames and commands, which is `serde_json`'s. -/
structure WorkerText where
  read : List UInt8 → Option WorkerOutput
  write : WorkerCommand → Option (List UInt8)

def parseOutput (text : WorkerText) (frame : List UInt8) : Except WireError WorkerOutput :=
  if maxFrameBytes < frame.length then .error .frameTooLarge
  else orRefuse (text.read frame) (.protocol .malformed)

/-- What the dispatcher queues for the request loop. -/
inductive Dispatched where
  | progress (frame : WorkerProgress)
  | measured (measurement : TranscriptionProgress)
  | result (result : WorkerResult)

/-- What the tracker makes of a frame.  A measurement that it ignores is dropped. -/
def RequestTracker.admitOutput (self : RequestTracker) :
    WorkerOutput → Except ProtocolError (Option Dispatched) × RequestTracker
  | .progress frame => (self.progress frame).map (·.map fun _ => some (.progress frame)) id
  | .transcriptionProgress frame =>
    (self.transcriptionProgress frame).map (fun m => .ok (m.map .measured)) id
  | .result result => (self.terminal result).map (·.map fun _ => some (.result result)) id

/-- `io::Error`, and the `CleanupFailure` made of one. -/
structure PipeError where
  kind : String
  message : String
deriving DecidableEq

inductive WorkerFault where
  | protocol (e : WireError)
  | workerExited
  | stdoutIo
  | stderrIo
  | stderrOverflow
deriving DecidableEq

structure WorkerFaultRecord where
  fault : WorkerFault
  occurredAt : Nat

/-- The errors of a request. -/
inductive SupervisionError where
  | workerExited
  | requestTimeout
  | stderrOverflow
  | cleanupFailed (e : PipeError)
  | unavailable
  | protocol (e : WireError)
  | io (e : PipeError)
deriving DecidableEq

def workerFaultError : WorkerFault → SupervisionError
  | .protocol e => .protocol e
  | .workerExited => .workerExited
  | .stdoutIo => .io ⟨"other", "worker stdout failed"⟩
  | .stderrIo => .io ⟨"other", "worker stderr failed"⟩
  | .stderrOverflow => .stderrOverflow

structure DispatchItem where
  receivedAt : Nat
  output : Dispatched

def queuedOutputPrecedesEof (fault : WorkerFaultRecord) (receivedAt : Nat) : Prop :=
  fault.fault = .workerExited ∧ receivedAt ≤ fault.occurredAt

instance (fault : WorkerFaultRecord) (receivedAt : Nat) :
    Decidable (queuedOutputPrecedesEof fault receivedAt) := by
  unfold queuedOutputPrecedesEof
  infer_instance

/-! ## The threads -/

/-- Where the dispatcher is. -/
inductive DispatcherPc where
  | reading
  /-- The output ended. -/
  | ended
  | parsed (output : WorkerOutput)
  | stamped (receivedAt : Nat) (output : WorkerOutput)
  | sending (item : DispatchItem)
  | faulting (fault : WorkerFault)
  /-- The fault is recorded and the cleanup not begun. -/
  | cleaning
  | done

structure Dispatcher where
  reader : FrameReader
  progressWindow : Nat
  progressEvents : Nat
  pc : DispatcherPc

/-- Where the monitor of the standard error is. -/
inductive StderrPc where
  | reading
  | failed
  | faulting (fault : WorkerFault)
  | cleaning (fault : WorkerFault)
  | done

/-- The monitor reads on after an overflow. -/
def StderrPc.after (fault : WorkerFault) : StderrPc :=
  if fault = .stderrOverflow then .reading else .done

structure StderrMonitor where
  total : Nat
  overflowed : Bool
  pc : StderrPc

structure CleanupState where
  finished : Bool
  failure : Option PipeError

/-- A call of `request_observing`. -/
structure Call where
  command : WorkerCommand
  deadline : Nat

/-- The checks of a call before its command is written, in their order. -/
inductive EntryCheck where
  | cleanup
  | fault
  | shutdown
  | deadline
  | register

/-- Where `write_until` is.  From `next` on it holds the lock of the input. -/
inductive WriteStep where
  | deadline
  | shutdown
  | stdin
  | next
  | clock
  | blocked
  | polling

/-- Where a call is whose request is registered. -/
inductive RunningPc where
  | writing (left : Nat) (step : WriteStep)
  | looping
  | polling (now : Nat)
  | emptied (now : Nat)
  | repolling
  | waiting
  | received (item : DispatchItem)
  | disconnected

/-- Where `abort_error` is. -/
inductive StopPc where
  | aborting
  | awaiting
  | joining

inductive CallPc where
  | idle
  | checking (call : Call) (check : EntryCheck)
  | running (call : Call) (pc : RunningPc)
  | cancelling (call : Call) (error : SupervisionError)
  | stopping (call : Call) (error : SupervisionError) (pc : StopPc)

/-- What a reader of a run can see. -/
inductive SupervisionEvent where
  /-- The dispatcher read a frame, or found none. -/
  | read (outcome : Except ReadError (List UInt8))
  /-- The tracker accepted a frame. -/
  | accepted (output : WorkerOutput) (dispatched : Dispatched)
  /-- The request of a call was registered; its command is written next. -/
  | registered (id : Uuid)
  /-- A callback of a call ran. -/
  | observed (id : Uuid) (dispatched : Dispatched)
  | returned (id : Uuid) (answer : Except SupervisionError WorkerResult)

/-- The worker with its threads.  The cleanup runs from the moment
`shutting_down` is set. -/
structure OwnedChild where
  clock : Nat
  requests : RequestTracker
  fault : Option WorkerFaultRecord
  queue : List DispatchItem
  outputReceiver : Bool
  stdinOpen : Bool
  shuttingDown : Bool
  cleanup : CleanupState
  dispatcher : Dispatcher
  stderr : StderrMonitor
  stopped : Bool
  pc : CallPc
  log : List SupervisionEvent

/-- A worker that is ready, with the reader that `wait_ready` hands on. -/
def OwnedChild.start (reader : FrameReader) (clock : Nat) : OwnedChild where
  clock := clock
  requests := .empty
  fault := none
  queue := []
  outputReceiver := true
  stdinOpen := true
  shuttingDown := false
  cleanup := ⟨false, none⟩
  dispatcher := ⟨reader, clock, 0, .reading⟩
  stderr := ⟨0, false, .reading⟩
  stopped := false
  pc := .idle
  log := []

namespace OwnedChild

def note (self : OwnedChild) (event : SupervisionEvent) : OwnedChild :=
  { self with log := self.log ++ [event] }

def setDispatcher (self : OwnedChild) (pc : DispatcherPc) : OwnedChild :=
  { self with dispatcher := { self.dispatcher with pc := pc } }

def setStderr (self : OwnedChild) (pc : StderrPc) : OwnedChild :=
  { self with stderr := { self.stderr with pc := pc } }

def setPc (self : OwnedChild) (pc : CallPc) : OwnedChild := { self with pc := pc }

/-- The first half of `install_fault`: the first fault is recorded. -/
def recordFault (self : OwnedChild) (fault : WorkerFault) : OwnedChild :=
  if self.fault.isSome then self else { self with fault := some ⟨fault, self.clock⟩ }

def beginCleanup (self : OwnedChild) : OwnedChild := { self with shuttingDown := true }

/-! ## The dispatcher -/

/-- `read_bounded_frame` and `parse_output`. -/
def readFrame (text : WorkerText) (self : OwnedChild) : OwnedChild :=
  let read := readBoundedFrame self.dispatcher.reader
  let self := ({ self with dispatcher := { self.dispatcher with reader := read.2 } }).note (.read read.1)
  match read.1 with
  | .error .frameTooLarge => self.setDispatcher (.faulting (.protocol .frameTooLarge))
  | .error .failed => self.setDispatcher (.faulting .stdoutIo)
  | .ok frame =>
    if frame = [] then self.setDispatcher .ended
    else match parseOutput text frame with
      | .error e => self.setDispatcher (.faulting (.protocol e))
      | .ok output => self.setDispatcher (.parsed output)

/-- The time of a frame, and the rate of the progress events. -/
def stampFrame (self : OwnedChild) (output : WorkerOutput) : OwnedChild :=
  let stamped := DispatcherPc.stamped self.clock output
  match output with
  | .result _ => self.setDispatcher stamped
  | _ =>
    let newWindow := second ≤ self.clock - self.dispatcher.progressWindow
    let events := if newWindow then 1 else self.dispatcher.progressEvents + 1
    { self with dispatcher := { self.dispatcher with
        progressWindow := if newWindow then self.clock else self.dispatcher.progressWindow
        progressEvents := events
        pc := if maxProgressEventsPerSecond < events then .faulting (.protocol .eventRateExceeded)
          else stamped } }

/-- The tracker is asked. -/
def admitFrame (self : OwnedChild) (receivedAt : Nat) (output : WorkerOutput) : OwnedChild :=
  let admitted := self.requests.admitOutput output
  let self := { self with requests := admitted.2 }
  match admitted.1 with
  | .error e => self.setDispatcher (.faulting (.protocol (.protocol e)))
  | .ok none => self.setDispatcher .reading
  | .ok (some dispatched) =>
    (self.note (.accepted output dispatched)).setDispatcher (.sending ⟨receivedAt, dispatched⟩)

/-- `try_send`. -/
def sendItem (self : OwnedChild) (item : DispatchItem) : OwnedChild :=
  if self.outputReceiver = false then self.setDispatcher .done
  else if maxQueuedOutputs ≤ self.queue.length then
    self.setDispatcher (.faulting (.protocol .outputQueueOverflow))
  else ({ self with queue := self.queue ++ [item] }).setDispatcher .reading

def dispatcherStep (text : WorkerText) (self : OwnedChild) : OwnedChild :=
  match self.dispatcher.pc with
  | .reading => self.readFrame text
  | .ended => self.setDispatcher (if self.shuttingDown then .done else .faulting .workerExited)
  | .parsed output => self.stampFrame output
  | .stamped receivedAt output => self.admitFrame receivedAt output
  | .sending item => self.sendItem item
  | .faulting fault =>
    (self.recordFault fault).setDispatcher (if self.fault.isSome then .done else .cleaning)
  | .cleaning => self.beginCleanup.setDispatcher .done
  | .done => self

/-! ## The standard error -/

inductive StderrRead where
  | eof
  | bytes (count : Nat)
  | interrupted
  | failed

def stderrStep (self : OwnedChild) (read : StderrRead) : OwnedChild :=
  match self.stderr.pc with
  | .reading =>
    match read with
    | .eof => self.setStderr .done
    | .interrupted => self
    | .failed => self.setStderr .failed
    | .bytes count =>
      let total := self.stderr.total + count
      if maxStderrBytes < total ∧ self.stderr.overflowed = false then
        { self with stderr := ⟨total, true, .faulting .stderrOverflow⟩ }
      else { self with stderr := { self.stderr with total := total } }
  | .failed => self.setStderr (if self.shuttingDown then .done else .faulting .stderrIo)
  | .faulting fault =>
    (self.recordFault fault).setStderr (if self.fault.isSome then .after fault else .cleaning fault)
  | .cleaning fault => self.beginCleanup.setStderr (.after fault)
  | .done => self

/-! ## The caller -/

inductive WriteOutcome where
  | accepted (count : Nat)
  | interrupted
  | wouldBlock
  | failed (e : PipeError)

inductive PollOutcome where
  | quiet
  | writable
  | closed
  | failed (e : PipeError)

/-- What is answered to a step of the caller: a write, a poll, `on_progress`, and
whether `recv_timeout` gives up once it may. -/
structure Answers where
  write : WriteOutcome
  poll : PollOutcome
  progress : Except WireError Unit
  timedOut : Bool

/-- A call returns. -/
def answer (self : OwnedChild) (call : Call) (answer : Except SupervisionError WorkerResult) :
    OwnedChild :=
  (self.note (.returned call.command.requestId answer)).setPc .idle

/-- What is checked before the command is written.  The frame of a command has a
newline after it. -/
def checkStep (text : WorkerText) (self : OwnedChild) (call : Call) : EntryCheck → OwnedChild
  | .cleanup => match self.cleanup.failure with
    | some failure => self.answer call (.error (.cleanupFailed failure))
    | none => self.setPc (.checking call .fault)
  | .fault => match self.fault with
    | some record => self.setPc (.stopping call (workerFaultError record.fault) .aborting)
    | none => self.setPc (.checking call .shutdown)
  | .shutdown =>
    if self.shuttingDown then self.answer call (.error .unavailable)
    else self.setPc (.checking call .deadline)
  | .deadline =>
    if call.deadline ≤ self.clock then self.answer call (.error .requestTimeout)
    else self.setPc (.checking call .register)
  | .register => match text.write call.command with
    | none => self.answer call (.error (.protocol (.protocol .malformed)))
    | some frame =>
      if maxFrameBytes < frame.length + 1 then self.answer call (.error (.protocol .frameTooLarge))
      else
        let registered := self.requests.register call.command
        let self := { self with requests := registered.2 }
        match registered.1 with
        | .error e => self.answer call (.error (.protocol (.protocol e)))
        | .ok () => (self.note (.registered call.command.requestId)).setPc
            (.running call (.writing (frame.length + 1) .deadline))

/-- `BrokenPipe`. -/
def brokenPipe (message : String) : SupervisionError := .io ⟨"broken pipe", message⟩

/-- One step of `write_until`: where the call is after it. -/
def writeStep (self : OwnedChild) (answers : Answers) (call : Call) (left : Nat) : WriteStep → CallPc
  | .deadline =>
    if call.deadline ≤ self.clock then .cancelling call .requestTimeout
    else .running call (.writing left .shutdown)
  | .shutdown =>
    if self.shuttingDown then .cancelling call (brokenPipe "worker is shutting down")
    else .running call (.writing left .stdin)
  | .stdin =>
    if self.stdinOpen then .running call (.writing left .next)
    else .cancelling call (brokenPipe "worker stdin is closed")
  | .next =>
    if left = 0 then .running call .looping
    else if self.shuttingDown then
      .cancelling call (brokenPipe "worker stopped while writing a command")
    else .running call (.writing left .clock)
  | .clock =>
    if call.deadline ≤ self.clock then .cancelling call .requestTimeout
    else match answers.write with
      | .accepted count =>
        if count = 0 then
          .cancelling call (.io ⟨"write zero", "worker stdin accepted zero bytes"⟩)
        else .running call (.writing (left - count) .next)
      | .interrupted => .running call (.writing left .next)
      | .wouldBlock => .running call (.writing left .blocked)
      | .failed e => .cancelling call (.io e)
  | .blocked =>
    if self.shuttingDown then
      .cancelling call (brokenPipe "worker stopped while waiting to write")
    else .running call (.writing left .polling)
  | .polling =>
    if call.deadline ≤ self.clock then .cancelling call .requestTimeout
    else match answers.poll with
      | .quiet => .running call (.writing left .blocked)
      | .writable => .running call (.writing left .next)
      | .closed => .cancelling call (brokenPipe "worker stdin closed while waiting to write")
      | .failed e => .cancelling call (.io e)

/-- A receive: the first item, or where the call is without one. -/
def receive (self : OwnedChild) (call : Call) (empty : RunningPc) : OwnedChild :=
  match self.queue with
  | item :: later => { self with queue := later, pc := .running call (.received item) }
  | [] => self.setPc (.running call empty)

/-- The channel is disconnected when it is empty and the dispatcher is gone. -/
def emptyOr (self : OwnedChild) (empty : RunningPc) : RunningPc :=
  match self.dispatcher.pc with
  | .done => .disconnected
  | _ => empty

/-- A callback runs with what was received. -/
def observe (self : OwnedChild) (call : Call) (dispatched : Dispatched) : OwnedChild :=
  self.note (.observed call.command.requestId dispatched)

/-- What the loop does with an item, the fault being looked at once. -/
def handleItem (self : OwnedChild) (answers : Answers) (call : Call) (item : DispatchItem) :
    OwnedChild :=
  if call.deadline < item.receivedAt then self.setPc (.cancelling call .requestTimeout)
  else match self.fault.filter fun fault => ¬ queuedOutputPrecedesEof fault item.receivedAt with
    | some record =>
      let error := workerFaultError record.fault
      match item.output with
      | .result _ => self.setPc (.stopping call error .aborting)
      | _ => self.setPc (.cancelling call error)
    | none => match item.output with
      | .progress frame =>
        (self.observe call (.progress frame)).setPc (match answers.progress with
          | .error e => .cancelling call (.protocol e)
          | .ok () => .running call .looping)
      | .measured measurement =>
        (self.observe call (.measured measurement)).setPc (.running call .looping)
      | .result result => self.answer call (.ok result)

def runningStep (self : OwnedChild) (answers : Answers) (call : Call) : RunningPc → OwnedChild
  | .writing left step => self.setPc (self.writeStep answers call left step)
  | .looping => self.setPc (.running call (.polling self.clock))
  | .polling now => self.receive call (self.emptyOr (.emptied now))
  | .emptied now =>
    if self.fault.isSome then self.setPc (.running call .repolling)
    else if call.deadline ≤ now then self.setPc (.cancelling call .requestTimeout)
    else self.setPc (.running call .waiting)
  | .repolling => self.receive call .disconnected
  | .waiting =>
    if answers.timedOut ∧ call.deadline ≤ self.clock then
      self.setPc (.cancelling call .requestTimeout)
    else self.receive call (self.emptyOr .waiting)
  | .received item => self.handleItem answers call item
  | .disconnected =>
    self.setPc (.cancelling call ((self.fault.map fun record => workerFaultError record.fault).getD
      .workerExited))

/-- `abort_error`.  The threads are joined after the cleanup; none of them
panics. -/
def stopStep (self : OwnedChild) (call : Call) (error : SupervisionError) : StopPc → OwnedChild
  | .aborting =>
    if self.stopped then self.answer call (.error error)
    else self.beginCleanup.setPc (.stopping call error .awaiting)
  | .awaiting =>
    if self.cleanup.finished = false then self
    else match self.cleanup.failure with
      | some failure => self.answer call (.error (.cleanupFailed failure))
      | none => { self with
          outputReceiver := false, queue := [], pc := .stopping call error .joining }
  | .joining => match self.dispatcher.pc, self.stderr.pc with
    | .done, .done => ({ self with stopped := true }).answer call (.error error)
    | _, _ => self

def callerStep (text : WorkerText) (self : OwnedChild) (answers : Answers) : OwnedChild :=
  match self.pc with
  | .idle => self
  | .checking call check => self.checkStep text call check
  | .running call pc => self.runningStep answers call pc
  | .cancelling call error =>
    { self with
      requests := self.requests.cancel call.command.requestId
      pc := .stopping call error .aborting }
  | .stopping call error pc => self.stopStep call error pc

/-- A call begins.  What only the caller touches is checked at once. -/
def request (self : OwnedChild) (call : Call) : OwnedChild :=
  match self.pc with
  | .idle =>
    if self.stopped ∨ self.outputReceiver = false then self.answer call (.error .unavailable)
    else self.setPc (.checking call .cleanup)
  | _ => self

/-! ## The cleanup -/

/-- The caller holds the lock of the input. -/
def holdsStdin (self : OwnedChild) : Prop :=
  match self.pc with
  | .running _ (.writing _ step) => match step with
    | .next | .clock | .blocked | .polling => True
    | _ => False
  | _ => False

instance (self : OwnedChild) : Decidable self.holdsStdin := by
  unfold holdsStdin
  split
  · split <;> infer_instance
  · infer_instance

/-- The cleanup closes the input. -/
def closeStdin (self : OwnedChild) : OwnedChild :=
  if self.shuttingDown ∧ ¬ self.holdsStdin then { self with stdinOpen := false } else self

/-- The cleanup is over, with a failure or without. -/
def finishCleanup (self : OwnedChild) (failure : Option PipeError) : OwnedChild :=
  if self.shuttingDown ∧ self.stdinOpen = false ∧ self.cleanup.finished = false then
    { self with cleanup := ⟨true, failure⟩ }
  else self

/-! ## Runs -/

inductive Move where
  | tick (elapsed : Nat)
  | dispatcher
  | stderr (read : StderrRead)
  | closeStdin
  | finishCleanup (failure : Option PipeError)
  | request (call : Call)
  | caller (answers : Answers)

/-- One step of a run.  A step that cannot be made changes nothing. -/
def step (text : WorkerText) (self : OwnedChild) : Move → OwnedChild
  | .tick elapsed => { self with clock := self.clock + elapsed }
  | .dispatcher => self.dispatcherStep text
  | .stderr read => self.stderrStep read
  | .closeStdin => self.closeStdin
  | .finishCleanup failure => self.finishCleanup failure
  | .request call => self.request call
  | .caller answers => self.callerStep text answers

def run (text : WorkerText) (self : OwnedChild) (moves : List Move) : OwnedChild :=
  moves.foldl (step text) self

end OwnedChild

end YawnApp.SessionCore
