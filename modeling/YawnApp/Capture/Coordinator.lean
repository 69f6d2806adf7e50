import YawnApp.Capture.WavPair

set_option autoImplicit false

/-!
# The capture coordinator

`MeetingCaptureCoordinator` runs its controls as jobs of one serial queue, while
the audio callbacks of two sources and the queues of two writers call into it from
their own threads.  They meet in the sections under its lock.

A step is one such section.  A job of the control queue is cut at every section and
at every call that lets another thread run: the program counter `control` says
where it is.  What another thread took from a section and has not used yet is in
`flights`, what was scheduled is in `jobs`, and either goes on in any order.
-/

namespace YawnApp.Capture

inductive MeetingCaptureUpdate where
  | recording
  | suspended
  | resumed
  | finalized (receipt : MeetingCaptureReceipt)
  | failed (fault : MeetingCaptureFault)
  | interrupted
deriving DecidableEq

inductive MeetingCaptureState where
  | paused
  | arming
  | recording
  | suspending
  | suspended
  | resuming
  | stopping
  | terminal
deriving DecidableEq

namespace Coordinator

/-- The arguments of `finish`. -/
structure Ending where
  promote : Bool
  interrupted : Bool
  failure : Option MeetingCaptureFault

/-- Where the control queue is in its job. -/
inductive Control where
  | idle
  /-- `suspend`, before `invalidateAcquisition` -/
  | invalidating
  /-- `suspend`, in the `stop` of the sources -/
  | releasing
  /-- `activate` or `resume`, before `beginAcquisition` -/
  | acquiring (resume : Bool)
  /-- `activate` or `resume`, in the `start` of a source -/
  | starting (resume : Bool) (leg : MeetingCaptureLeg) (epoch : UInt64)
  /-- `finish`, in the `stop` of a source -/
  | stopping (leg : MeetingCaptureLeg) (ending : Ending)
  /-- `finish`, before it reads the stored fault -/
  | deciding (ending : Ending)
  /-- `finish`, in the `finish` of the pair if there is one -/
  | finishing (ending : Ending) (terminalFault : Option MeetingCaptureFault) (hasPair : Bool)
  /-- `finish`, before its last section -/
  | closing (ending : Ending) (terminalFault : Option MeetingCaptureFault)
      (receipt : Option MeetingCaptureReceipt)

/-- The jobs that other threads schedule. -/
inductive Job where
  | fail (fault : MeetingCaptureFault)
  | finish (ending : Ending)
  | markReady (leg : MeetingCaptureLeg) (epoch : UInt64)
  | markResumed (leg : MeetingCaptureLeg) (epoch : UInt64)
  | recordBlockDelivery (leg : MeetingCaptureLeg) (epoch : UInt64)

/-- A block with what `receive` found when it began. -/
structure Arrival where
  leg : MeetingCaptureLeg
  epoch : UInt64
  data : Bytes
  state : MeetingCaptureState
  currentEpoch : UInt64
  draining : Bool

/-- Threads between two sections. -/
inductive Flight where
  /-- `append`, with whether the snapshot had a pair -/
  | append (arrival : Arrival) (hasPair : Bool)
  /-- `record` -/
  | record (fault : MeetingCaptureFault)
  /-- `recordSource` of a configuration change that did not end the recording -/
  | configuration (leg : MeetingCaptureLeg) (epoch : UInt64) (fault : MeetingCaptureFault)
  /-- `recordSource` before its last section -/
  | source (leg : MeetingCaptureLeg) (epoch : UInt64) (fault : MeetingCaptureFault)

/-- What a run is audited by. -/
inductive Note where
  /-- a leg was marked ready in an acquisition -/
  | ready (leg : MeetingCaptureLeg) (epoch : UInt64)
  /-- a source, a writer or the watchdog failed the take -/
  | fault (fault : MeetingCaptureFault)
  /-- `finish` read the stored fault -/
  | decided

structure Settings where
  stallGraceNanoseconds : UInt64
  monitorsSystemAudioStall : Bool

end Coordinator

/-- The coordinator with its threads.  The last three fields are what came of the
run: the updates, the notes and the blocks a writer accepted. -/
structure Coordinator where
  state : MeetingCaptureState
  readyLegs : MeetingCaptureLeg → Bool
  stopDrainingLegs : MeetingCaptureLeg → Bool
  lastBlockDelivery : MeetingCaptureLeg → Option UInt64
  watchdogEpoch : Option UInt64
  acquisitionEpoch : UInt64
  storedFault : Option MeetingCaptureFault
  stopReason : Option MeetingCaptureStopReason
  hasPair : Bool
  control : Coordinator.Control
  jobs : List Coordinator.Job
  flights : List Coordinator.Flight
  updates : List MeetingCaptureUpdate
  notes : List Coordinator.Note
  written : List Coordinator.Arrival

namespace Coordinator

def initial : Coordinator where
  state := .paused
  readyLegs _ := false
  stopDrainingLegs _ := false
  lastBlockDelivery _ := none
  watchdogEpoch := none
  acquisitionEpoch := 0
  storedFault := none
  stopReason := none
  hasPair := false
  control := .idle
  jobs := []
  flights := []
  updates := []
  notes := []
  written := []

/-! ## The control queue -/

/-- `isActiveAcquisition(epoch, state:)`. -/
def isActiveAcquisition (s : Coordinator) (epoch : UInt64) (required : MeetingCaptureState) : Bool :=
  s.acquisitionEpoch == epoch && s.state == required

/-- `cancelStallWatchdog`. -/
def cancelStallWatchdog (s : Coordinator) : Coordinator :=
  { s with watchdogEpoch := none, lastBlockDelivery := fun _ => none }

/-- `monitoredStallLegs`. -/
def monitoredStallLegs (settings : Settings) : List MeetingCaptureLeg :=
  if settings.monitorsSystemAudioStall then [.mic, .system] else [.mic]

/-- `armStallWatchdog`. -/
def armStallWatchdog (settings : Settings) (s : Coordinator) (epoch now : UInt64) : Coordinator :=
  { s with
    watchdogEpoch := some epoch
    lastBlockDelivery := fun leg =>
      if leg ∈ monitoredStallLegs settings then some now else none }

/-- The first section of `finish`. -/
def beginFinish (s : Coordinator) (ending : Ending) : Coordinator :=
  if s.state = .terminal then s
  else
    { s.cancelStallWatchdog with
      state := .stopping
      stopDrainingLegs := if s.hasPair then fun _ => true else s.stopDrainingLegs
      control := .stopping .mic ending }

/-- `fail`. -/
def fail (s : Coordinator) (fault : MeetingCaptureFault) : Coordinator :=
  if s.state = .terminal then s else s.beginFinish ⟨false, false, some fault⟩

/-- `suspend`, up to its first transition. -/
def suspend (s : Coordinator) : Coordinator :=
  if s.state = .recording then { s with state := .suspending, control := .invalidating } else s

def invalidStart : MeetingCaptureFault :=
  ⟨"invalid_start", none, "capture start is valid only while paused"⟩

def invalidResume : MeetingCaptureFault :=
  ⟨"invalid_resume", none, "capture resume is valid only while suspended"⟩

def activate (s : Coordinator) : Coordinator :=
  if s.state = .paused then { s with state := .arming, control := .acquiring false }
  else s.fail invalidStart

def resume (s : Coordinator) : Coordinator :=
  if s.state = .suspended then { s with state := .resuming, control := .acquiring true }
  else s.fail invalidResume

/-- `onUpdate`. -/
def emit (s : Coordinator) (update : MeetingCaptureUpdate) : Coordinator :=
  { s with updates := s.updates ++ [update] }

def note (s : Coordinator) (n : Note) : Coordinator := { s with notes := s.notes ++ [n] }

/-- `readyLegs.insert(leg)`. -/
def insertReady (s : Coordinator) (leg : MeetingCaptureLeg) (epoch : UInt64) : Coordinator :=
  { s.note (.ready leg epoch) with readyLegs := fun other => other = leg || s.readyLegs other }

def allReady (s : Coordinator) : Bool := s.readyLegs .mic && s.readyLegs .system

/-- `markReady`; `opened` is what the initializer of the pair throws. -/
def markReady (settings : Settings) (s : Coordinator) (leg : MeetingCaptureLeg) (epoch now : UInt64)
    (opened : Except MeetingCaptureFault Unit) : Coordinator :=
  if ¬ s.isActiveAcquisition epoch .arming then s
  else
    let s := s.insertReady leg epoch
    if ¬ s.allReady then s
    else
      match opened with
      | .error fault => s.fail fault
      | .ok () =>
        (armStallWatchdog settings { s with hasPair := true, state := .recording } epoch now).emit
          .recording

/-- `markResumed`. -/
def markResumed (settings : Settings) (s : Coordinator) (leg : MeetingCaptureLeg)
    (epoch now : UInt64) : Coordinator :=
  if ¬ s.isActiveAcquisition epoch .resuming then s
  else
    let s := s.insertReady leg epoch
    if ¬ s.allReady then s
    else (armStallWatchdog settings { s with state := .recording } epoch now).emit .resumed

/-- `recordBlockDelivery`. -/
def recordBlockDelivery (s : Coordinator) (leg : MeetingCaptureLeg) (epoch now : UInt64) :
    Coordinator :=
  if ¬ s.isActiveAcquisition epoch .recording then s
  else
    { s with
      lastBlockDelivery := fun other => if other = leg then some now else s.lastBlockDelivery other }

/-- The legs that delivered nothing for the grace, or never. -/
def stalledLeg (settings : Settings) (s : Coordinator) (now : UInt64) : Option MeetingCaptureLeg :=
  (monitoredStallLegs settings).find? fun leg =>
    match s.lastBlockDelivery leg with
    | none => true
    | some delivered => decide (now - delivered ≥ settings.stallGraceNanoseconds)

def stallFault (leg : MeetingCaptureLeg) : MeetingCaptureFault :=
  ⟨match leg with
    | .mic => "microphone_audio_stalled"
    | .system => "system_audio_stalled", some leg,
    leg.rawValue ++ " source delivered no PCM before its stall deadline"⟩

/-- `checkForStalledAudio`. -/
def checkForStalledAudio (settings : Settings) (s : Coordinator) (epoch now : UInt64) :
    Coordinator :=
  if ¬ (s.watchdogEpoch = some epoch ∧ s.isActiveAcquisition epoch .recording = true) then s
  else if s.storedFault.isSome then s
  else
    match s.stalledLeg settings now with
    | none => s
    | some leg => (s.note (.fault (stallFault leg))).fail (stallFault leg)

/-- What the calls of a job answer: the start of a source, the initializer of the
pair, its `finish`, and the clock. -/
structure Answers where
  started : Except MeetingCaptureFault Unit
  opened : Except MeetingCaptureFault Unit
  finished : Except MeetingCaptureFault MeetingCaptureReceipt
  now : UInt64

def notReady : MeetingCaptureFault :=
  ⟨"capture_not_ready", none, "capture stopped before both legs were ready"⟩

/-- The update of the end of `finish`. -/
def terminalUpdate (ending : Ending) (terminalFault : Option MeetingCaptureFault)
    (receipt : Option MeetingCaptureReceipt) : MeetingCaptureUpdate :=
  if ending.interrupted then .interrupted
  else
    match terminalFault with
    | some fault => .failed fault
    | none =>
      match receipt with
      | some receipt => if ending.promote then .finalized receipt else .failed notReady
      | none => .failed notReady

/-- The next section of the job that is under way. -/
def advance (s : Coordinator) (answers : Answers) : Coordinator :=
  match s.control with
  | .idle => s
  | .invalidating =>
    { s.cancelStallWatchdog with acquisitionEpoch := s.acquisitionEpoch + 1, control := .releasing }
  | .releasing =>
    { s.emit .suspended with readyLegs := fun _ => false, state := .suspended, control := .idle }
  | .acquiring resume =>
    { s with
      acquisitionEpoch := s.acquisitionEpoch + 1
      control := .starting resume .mic (s.acquisitionEpoch + 1) }
  | .starting resume leg epoch =>
    match answers.started with
    | .error fault => ({ s.note (.fault fault) with control := .idle }).fail fault
    | .ok () =>
      { s with control := match leg with | .mic => .starting resume .system epoch | .system => .idle }
  | .stopping leg ending =>
    { s with
      stopDrainingLegs := fun other => if other = leg then false else s.stopDrainingLegs other
      control := match leg with | .mic => .stopping .system ending | .system => .deciding ending }
  | .deciding ending =>
    { s.note .decided with control := .finishing ending (ending.failure.or s.storedFault) s.hasPair }
  | .finishing ending terminalFault hasPair =>
    if hasPair then
      match answers.finished with
      | .ok receipt =>
        { s with control := .closing ending terminalFault (some { receipt with stopReason := s.stopReason }) }
      | .error fault => { s with control := .closing ending (terminalFault.or (some fault)) none }
    else { s with control := .closing ending terminalFault none }
  | .closing ending terminalFault receipt =>
    { s.emit (terminalUpdate ending terminalFault receipt) with
      hasPair := false
      state := .terminal
      acquisitionEpoch := s.acquisitionEpoch + 1
      control := .idle }

/-- A scheduled job. -/
def runJob (settings : Settings) (s : Coordinator) (answers : Answers) : Job → Coordinator
  | .fail fault => s.fail fault
  | .finish ending => s.beginFinish ending
  | .markReady leg epoch => s.markReady settings leg epoch answers.now answers.opened
  | .markResumed leg epoch => s.markResumed settings leg epoch answers.now
  | .recordBlockDelivery leg epoch => s.recordBlockDelivery leg epoch answers.now

/-! ## The callbacks -/

def schedule (s : Coordinator) (job : Job) : Coordinator := { s with jobs := s.jobs ++ [job] }

def fly (s : Coordinator) (flight : Flight) : Coordinator := { s with flights := s.flights ++ [flight] }

/-- `receive`, up to its snapshot and what it schedules. -/
def receive (s : Coordinator) (leg : MeetingCaptureLeg) (epoch : UInt64) (data : Bytes) :
    Coordinator :=
  let arrival := Arrival.mk leg epoch data s.state s.acquisitionEpoch (s.stopDrainingLegs leg)
  if data = [] then s
  else if s.acquisitionEpoch ≠ epoch then s
  else
    match s.state with
    | .arming => s.schedule (.markReady leg epoch)
    | .resuming => s.schedule (.markResumed leg epoch)
    | .recording => (s.schedule (.recordBlockDelivery leg epoch)).fly (.append arrival s.hasPair)
    | .stopping =>
      if s.stopDrainingLegs leg then s.fly (.append arrival s.hasPair) else s
    | .paused | .suspending | .suspended | .terminal => s

/-- Store a fault, the first one, and schedule the failure unless it is stopping. -/
def store (s : Coordinator) (fault : MeetingCaptureFault) : Coordinator :=
  let s := { s.note (.fault fault) with storedFault := s.storedFault.or (some fault) }
  if s.state = .stopping then s else s.schedule (.fail fault)

/-- `record`. -/
def record (s : Coordinator) (fault : MeetingCaptureFault) : Coordinator :=
  if s.state = .terminal then s else s.store fault

def configurationChanged : String := "microphone_configuration_changed"

/-- `recordSource`, its first section. -/
def recordSource (s : Coordinator) (leg : MeetingCaptureLeg) (epoch : UInt64)
    (fault : MeetingCaptureFault) : Coordinator :=
  if leg = .mic ∧ fault.code = configurationChanged then
    if s.acquisitionEpoch = epoch ∧ s.state = .recording then
      ({ s with stopReason := some .microphoneConfigurationChanged }).schedule
        (.finish ⟨true, false, none⟩)
    else s.fly (.configuration leg epoch fault)
  else s.fly (.source leg epoch fault)

def invalidPCM (leg : MeetingCaptureLeg) : MeetingCaptureFault :=
  ⟨"invalid_pcm", some leg, "normalized PCM must contain whole signed 16-bit samples"⟩

def queueOverflow (leg : MeetingCaptureLeg) : MeetingCaptureFault :=
  ⟨"writer_queue_overflow", some leg, "bounded WAV writer queue refused audio"⟩

/-- The next section of a thread; `accepted` is what the writer answers. -/
def land (s : Coordinator) (accepted : Bool) : Flight → Coordinator
  | .append arrival hasPair =>
    if arrival.data.length % 2 ≠ 0 ∨ hasPair = false then s.fly (.record (invalidPCM arrival.leg))
    else if accepted then { s with written := s.written ++ [arrival] }
    else s.fly (.record (queueOverflow arrival.leg))
  | .record fault => s.record fault
  | .configuration leg epoch fault =>
    if s.acquisitionEpoch = epoch ∧ s.state = .stopping then s else s.fly (.source leg epoch fault)
  | .source leg epoch fault =>
    if s.acquisitionEpoch = epoch ∧ s.state ≠ .terminal ∧
        (s.state ≠ .stopping ∨ s.stopDrainingLegs leg = true) then s.store fault
    else s

/-! ## Runs -/

/-- A control begins, a scheduled job or a tick of the watchdog runs, the job under
way goes on, a callback begins, or a thread goes on. -/
inductive Step where
  | activate
  | suspend
  | resume
  | stop
  | interrupt
  | abort (fault : MeetingCaptureFault)
  | job (index : Nat) (answers : Answers)
  | tick (epoch now : UInt64)
  | advance (answers : Answers)
  | receive (leg : MeetingCaptureLeg) (epoch : UInt64) (data : Bytes)
  | sourceFault (leg : MeetingCaptureLeg) (epoch : UInt64) (fault : MeetingCaptureFault)
  | writerFault (fault : MeetingCaptureFault)
  | thread (index : Nat) (accepted : Bool)

/-- A job begins only while the control queue is free. -/
def ifIdle (s : Coordinator) (next : Coordinator) : Coordinator :=
  match s.control with
  | .idle => next
  | _ => s

def step (settings : Settings) (s : Coordinator) : Step → Coordinator
  | .activate => s.ifIdle s.activate
  | .suspend => s.ifIdle s.suspend
  | .resume => s.ifIdle s.resume
  | .stop => s.ifIdle (s.beginFinish ⟨true, false, none⟩)
  | .interrupt => s.ifIdle (s.beginFinish ⟨false, true, none⟩)
  | .abort fault => s.ifIdle (s.beginFinish ⟨false, false, some fault⟩)
  | .job index answers =>
    match s.jobs[index]? with
    | none => s
    | some job => s.ifIdle (({ s with jobs := s.jobs.eraseIdx index }).runJob settings answers job)
  | .tick epoch now => s.ifIdle (s.checkForStalledAudio settings epoch now)
  | .advance answers => s.advance answers
  | .receive leg epoch data => s.receive leg epoch data
  | .sourceFault leg epoch fault => s.recordSource leg epoch fault
  | .writerFault fault => s.record fault
  | .thread index accepted =>
    match s.flights[index]? with
    | none => s
    | some flight => ({ s with flights := s.flights.eraseIdx index }).land accepted flight

def run (settings : Settings) (s : Coordinator) (steps : List Step) : Coordinator :=
  steps.foldl (step settings) s

end Coordinator

end YawnApp.Capture
