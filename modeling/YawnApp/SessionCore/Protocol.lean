import YawnApp.Foundation.EventLog
import YawnApp.Foundation.LogSections
import YawnApp.SessionCore.Text

set_option autoImplicit false

/-!
# The worker protocol (`protocol.rs`)

One command is out to the worker at a time.  `RequestTracker` is told of every
command that is sent and is asked about every frame the worker writes: a state
heartbeat, a measurement of a transcription, a result.  The worker may write
anything, so what the tracker promises is about the log of any sequence of
calls, with what each call answered.

A function of the source that takes `&mut self` is a function from the tracker
to its answer and the tracker it leaves, refusals included.
-/

namespace YawnApp.SessionCore

open YawnApp.Foundation

/-! ## Identifiers in any spelling -/

/-- The hyphens of the canonical text. -/
def hyphenate (digits : List Char) : List Char :=
  digits.take 8 ++ '-' :: (digits.drop 8).take 4 ++ '-' :: (digits.drop 12).take 4 ++
    '-' :: (digits.drop 16).take 4 ++ '-' :: digits.drop 20

/-- `Uuid::parse_str`: the digits in either case, in one piece or hyphenated, and
the hyphenated text also in braces or as an URN. -/
def Uuid.parseStr (value : String) : Option Uuid :=
  let text := value.toList
  let urn := "urn:uuid:".toList
  let hyphenated :=
    if text.length = 32 then hyphenate text
    else if text.length = 38 ∧ text.head? = some '{' ∧ text.getLast? = some '}' then
      text.tail.dropLast
    else if text.length = 45 ∧ text.take 9 = urn then text.drop 9
    else text
  let canonical := String.ofList (hyphenated.map Char.toLower)
  if h : canonicalUuid canonical = true then some ⟨canonical, h⟩ else none

/-! ## Frames -/

inductive Operation where
  | profileInspect
  | profileChoices
  | profileBuild
  | profileAdopt
  | profileDiscard
  | captureStart
  | captureFinalize
  | captureInspect
  | sittingDerive
  | transcriptCreate
  | transcriptRetry
  | transcriptRestore
  | noteCreate
  | noteInspect
  | speakerSuggest
  | corpusEmbed
deriving DecidableEq, Repr

inductive ResultCode where
  | tapReadyTimeout
  | runtimeMissing
  | invalidProfile
  | invalidCapture
  | transcriptionFailed
  | noteRejected
  | protocolFailure
deriving DecidableEq, Repr

/-- The refusals of the tracker.  Those of the frame parser and of the output
queue are not among them. -/
inductive ProtocolError where
  | malformed
  | requestLimit
  | duplicateRequest
  | unknownRequest
  | duplicateTerminal
  | invalidEvent
  | duplicateProgress
  | invalidResult
deriving DecidableEq, Repr

inductive ProgressEvent where
  | captureState
deriving DecidableEq, Repr

inductive CaptureProgressState where
  | recording
  | transcribing
  | finishing
deriving DecidableEq, Repr

structure WorkerCommand where
  requestId : Uuid
  operation : Operation
  arguments : Value

structure WorkerProgress where
  requestId : Uuid
  event : ProgressEvent
  state : CaptureProgressState
  meetingId : Uuid

/-- The two amounts are raw JSON, `null` where the frame has none. -/
structure WorkerTranscriptionProgress where
  requestId : Uuid
  meetingId : Uuid
  audioSecondsDone : Value
  audioSecondsTotal : Value

structure TranscriptionProgress where
  meetingId : Uuid
  audioSecondsDone : UInt32
  audioSecondsTotal : UInt32
deriving DecidableEq

structure WorkerResult where
  requestId : Uuid
  ok : Bool
  code : Option ResultCode
  recoverable : Option Bool
  artifactDigests : List (String × String)

/-! ## The tracker -/

structure PendingRequest where
  requestId : Uuid
  operation : Operation
  meetingId : Option Uuid
  sawRecording : Bool
  measured : Option (UInt32 × UInt32)

structure RequestTracker where
  pending : Option PendingRequest
  lastTerminal : Option Uuid

/-- `RequestTracker::default`. -/
def RequestTracker.empty : RequestTracker := ⟨none, none⟩

/-- The operations whose commands name a meeting. -/
def Operation.NamesMeeting (operation : Operation) : Prop :=
  operation ∈ [.captureStart, .transcriptCreate, .transcriptRetry, .noteCreate, .speakerSuggest]

instance (operation : Operation) : Decidable operation.NamesMeeting := by
  unfold Operation.NamesMeeting
  infer_instance

/-- The meeting a command is about. -/
def WorkerCommand.meetingId (command : WorkerCommand) : Except ProtocolError (Option Uuid) :=
  if command.operation.NamesMeeting then do
    let value ← orRefuse ((command.arguments.get "meeting_id").bind Value.asStr) .malformed
    let id ← orRefuse (Uuid.parseStr value) .malformed
    return some id
  else .ok none

/-- `as_u64` and `u32::try_from`. -/
def measuredAmount : Value → Option UInt32
  | .natural n => if n < UInt32.size then some (UInt32.ofNat n) else none
  | _ => none

namespace RequestTracker

def register (self : RequestTracker) (command : WorkerCommand) :
    Except ProtocolError Unit × RequestTracker :=
  if self.pending.isSome then (.error .requestLimit, self)
  else if self.lastTerminal = some command.requestId then (.error .duplicateRequest, self)
  else match command.meetingId with
    | .error e => (.error e, self)
    | .ok meetingId =>
      (.ok (), { self with pending := some {
        requestId := command.requestId
        operation := command.operation
        meetingId := meetingId
        sawRecording := false
        measured := none } })

def progress (self : RequestTracker) (progress : WorkerProgress) :
    Except ProtocolError Unit × RequestTracker :=
  if self.lastTerminal = some progress.requestId then (.error .duplicateTerminal, self)
  else match self.pending with
    | none => (.error .unknownRequest, self)
    | some pending =>
      if pending.requestId ≠ progress.requestId then (.error .unknownRequest, self)
      else if pending.meetingId ≠ some progress.meetingId ∨ progress.event ≠ .captureState then
        (.error .invalidEvent, self)
      else match pending.operation, progress.state with
        | .captureStart, .recording =>
          if pending.sawRecording then (.error .duplicateProgress, self)
          else (.ok (), { self with pending := some { pending with sawRecording := true } })
        -- a heartbeat is repeatable
        | .transcriptCreate, .transcribing => (.ok (), self)
        | .transcriptRetry, .transcribing => (.ok (), self)
        | .noteCreate, .finishing => (.ok (), self)
        | _, _ => (.error .invalidEvent, self)

/-- A frame that cannot be used is ignored and never refused. -/
def transcriptionProgress (self : RequestTracker) (progress : WorkerTranscriptionProgress) :
    Option TranscriptionProgress × RequestTracker :=
  match self.pending with
  | none => (none, self)
  | some pending =>
    if pending.requestId ≠ progress.requestId ∨ pending.meetingId ≠ some progress.meetingId ∨
        pending.operation ∉ [.transcriptCreate, .transcriptRetry] then (none, self)
    else match measuredAmount progress.audioSecondsDone,
        measuredAmount progress.audioSecondsTotal with
      | some done, some total =>
        if total = 0 ∨ total < done then (none, self)
        else if pending.measured.any fun last => total ≠ last.2 ∨ done < last.1 then (none, self)
        else (some ⟨progress.meetingId, done, total⟩,
          { self with pending := some { pending with measured := some (done, total) } })
      | _, _ => (none, self)

/-- The shape that a result must have. -/
def WellShaped (result : WorkerResult) : Prop :=
  if result.ok then result.code = none ∧ result.recoverable = none
  else result.code.isSome ∧ result.recoverable.isSome ∧ result.artifactDigests = []

instance (result : WorkerResult) : Decidable (WellShaped result) := by
  unfold WellShaped
  infer_instance

def terminal (self : RequestTracker) (result : WorkerResult) :
    Except ProtocolError Unit × RequestTracker :=
  if self.lastTerminal = some result.requestId then (.error .duplicateTerminal, self)
  else match self.pending with
    | none => (.error .unknownRequest, self)
    | some pending =>
      if pending.requestId ≠ result.requestId then (.error .unknownRequest, self)
      else if ¬ WellShaped result ∨
          result.ok ∧ pending.operation = .captureStart ∧ ¬ pending.sawRecording then
        (.error .invalidResult, self)
      else (.ok (), { pending := none, lastTerminal := some result.requestId })

def cancel (self : RequestTracker) (requestId : Uuid) : RequestTracker :=
  if self.pending.any fun pending => pending.requestId = requestId then { self with pending := none }
  else self

end RequestTracker

/-! ## The log -/

inductive TrackerCall where
  | register (command : WorkerCommand)
  | progress (frame : WorkerProgress)
  | transcriptionProgress (frame : WorkerTranscriptionProgress)
  | terminal (result : WorkerResult)
  | cancel (requestId : Uuid)

inductive TrackerAnswer where
  | accepted
  | measured (measurement : TranscriptionProgress)
  | ignored
  | refused (e : ProtocolError)
deriving DecidableEq

/-- A call that answers `Result<(), ProtocolError>`. -/
def TrackerAnswer.ofResult : Except ProtocolError Unit → TrackerAnswer
  | .ok () => .accepted
  | .error e => .refused e

/-- A call that admits a measurement or ignores it. -/
def TrackerAnswer.ofMeasurement : Option TranscriptionProgress → TrackerAnswer
  | some m => .measured m
  | none => .ignored

/-- The answer of a call, and the tracker it leaves. -/
def RequestTracker.handle (self : RequestTracker) : TrackerCall → TrackerAnswer × RequestTracker
  | .register command => (self.register command).map .ofResult id
  | .progress frame => (self.progress frame).map .ofResult id
  | .transcriptionProgress frame =>
    (self.transcriptionProgress frame).map .ofMeasurement id
  | .terminal result => (self.terminal result).map .ofResult id
  | .cancel requestId => (.accepted, self.cancel requestId)

structure Logged where
  call : TrackerCall
  answer : TrackerAnswer

/-- A tracker with the log of the calls it was given. -/
structure Tracked where
  tracker : RequestTracker
  log : List Logged

def Tracked.call (t : Tracked) (call : TrackerCall) : Tracked where
  tracker := (t.tracker.handle call).2
  log := t.log ++ [⟨call, (t.tracker.handle call).1⟩]

/-- A run from the start. -/
def Tracked.run (calls : List TrackerCall) : Tracked :=
  calls.foldl Tracked.call ⟨.empty, []⟩

/-! ### What the log says -/

namespace Logged

def Registers (command : WorkerCommand) (e : Logged) : Prop :=
  e = ⟨.register command, .accepted⟩

/-- The worker reports that the recording has begun. -/
def Records (e : Logged) : Prop :=
  ∃ frame, e = ⟨.progress frame, .accepted⟩ ∧ frame.state = .recording

def Measures (m : TranscriptionProgress) (e : Logged) : Prop :=
  ∃ frame, e = ⟨.transcriptionProgress frame, .measured m⟩

def Finishes (id : Uuid) (e : Logged) : Prop :=
  ∃ result, e = ⟨.terminal result, .accepted⟩ ∧ result.requestId = id

/-- What ends the request `id`. -/
def Ends (id : Uuid) (e : Logged) : Prop := e.Finishes id ∨ e = ⟨.cancel id, .accepted⟩

variable (call : TrackerCall) (answer : TrackerAnswer)

@[simp] theorem registers_mk (command : WorkerCommand) :
    Registers command ⟨call, answer⟩ ↔ call = .register command ∧ answer = .accepted := by
  rw [Registers, Logged.mk.injEq]

@[simp] theorem records_mk :
    Records ⟨call, answer⟩ ↔
      ∃ frame, (call = .progress frame ∧ answer = .accepted) ∧ frame.state = .recording := by
  simp only [Records, Logged.mk.injEq]

@[simp] theorem measures_mk (m : TranscriptionProgress) :
    Measures m ⟨call, answer⟩ ↔
      ∃ frame, call = .transcriptionProgress frame ∧ answer = .measured m := by
  simp only [Measures, Logged.mk.injEq]

@[simp] theorem ends_mk (id : Uuid) :
    Ends id ⟨call, answer⟩ ↔
      (∃ result, (call = .terminal result ∧ answer = .accepted) ∧ result.requestId = id) ∨
        call = .cancel id ∧ answer = .accepted := by
  simp only [Ends, Finishes, Logged.mk.injEq]

end Logged

/-- The request registered at position `i` has had no result and was not
cancelled. -/
def PendingSince (command : WorkerCommand) (log : List Logged) (i : Nat) : Prop :=
  OpenSince (Logged.Registers command) (Logged.Ends command.requestId) log i

/-- What the entry `e` promises about the log before it. -/
structure SafeEntry (earlier : List Logged) (e : Logged) : Prop where
  /-- A command is registered while none is pending. -/
  register : ∀ command, e.Registers command → ∀ i pending, ¬ PendingSince pending earlier i
  /-- A heartbeat is accepted for the pending request and its meeting. -/
  progress : ∀ frame, e = ⟨.progress frame, .accepted⟩ →
    ∃ i command, PendingSince command earlier i ∧ command.requestId = frame.requestId ∧
      command.meetingId = .ok (some frame.meetingId)
  /-- A measurement is accepted for the pending transcription and its meeting.
  It goes on from those that the request had before. -/
  measured : ∀ frame m, e = ⟨.transcriptionProgress frame, .measured m⟩ →
    m.meetingId = frame.meetingId ∧ m.audioSecondsDone ≤ m.audioSecondsTotal ∧
    ∃ i command, PendingSince command earlier i ∧ command.requestId = frame.requestId ∧
      command.meetingId = .ok (some frame.meetingId) ∧
      command.operation ∈ [.transcriptCreate, .transcriptRetry] ∧
      ∀ k last, i < k → At earlier k (Logged.Measures last) →
        last.audioSecondsTotal = m.audioSecondsTotal ∧ last.audioSecondsDone ≤ m.audioSecondsDone
  /-- A result is accepted for the pending request, and the success of a
  `capture.start` after one report of the recording. -/
  terminal : ∀ result, e = ⟨.terminal result, .accepted⟩ →
    ∃ i command, PendingSince command earlier i ∧ command.requestId = result.requestId ∧
      (result.ok = true → command.operation = .captureStart →
        ∃! k, i < k ∧ At earlier k Logged.Records)

/-- Every entry of a log is safe. -/
def SafeLog (log : List Logged) : Prop :=
  ∀ earlier e later, log = earlier ++ e :: later → SafeEntry earlier e

theorem safeLog_nil : SafeLog [] := entries_nil

theorem SafeLog.concat {log : List Logged} {e : Logged} (h : SafeLog log) (he : SafeEntry log e) :
    SafeLog (log ++ [e]) := Entries.concat h he

/-- Between two results for one identifier it was registered again. -/
theorem SafeLog.registered_between {log : List Logged} (h : SafeLog log) {j j' : Nat} {id : Uuid}
    (hj : At log j (Logged.Finishes id)) (hj' : At log j' (Logged.Finishes id)) (hlt : j < j') :
    ∃ k command, j < k ∧ k < j' ∧ command.requestId = id ∧ At log k (Logged.Registers command) := by
  obtain ⟨earlier, found, later, rfl, rfl, result, rfl, rfl⟩ := hj'.split
  obtain ⟨k, command, hpending, hid, -⟩ := (h earlier _ later rfl).terminal result rfl
  have hfinished := hj.of_append hlt
  refine ⟨k, command, ?_, hpending.opened.lt_length, hid, hpending.opened.append⟩
  by_contra hle
  have hne : k ≠ j := by
    rintro rfl
    obtain ⟨e, he, hregisters⟩ := hpending.opened
    obtain ⟨e', he', result', hfinishes, -⟩ := hfinished
    rw [he, Option.some.injEq] at he'
    rw [he', hfinishes] at hregisters
    cases hregisters
  exact hpending.unclosed j (by omega) (hfinished.imp fun _ hfinishes => .inl (hid ▸ hfinishes))

/-! ## The invariant -/

/-- The pending request of a tracker, as its log has it. -/
structure Describes (pending : PendingRequest) (command : WorkerCommand) (log : List Logged)
    (i : Nat) : Prop where
  since : PendingSince command log i
  requestId : command.requestId = pending.requestId
  operation : command.operation = pending.operation
  meetingId : command.meetingId = .ok pending.meetingId
  sawRecording : pending.sawRecording = true → ∃! k, i < k ∧ At log k Logged.Records
  noRecording : pending.sawRecording = false → ∀ k, i < k → ¬ At log k Logged.Records
  measured : ∀ k last, i < k → At log k (Logged.Measures last) →
    pending.measured.any fun found =>
      last.audioSecondsTotal = found.2 ∧ last.audioSecondsDone ≤ found.1

/-- A tracker knows what its log says. -/
structure Tracked.Sound (t : Tracked) : Prop where
  safe : SafeLog t.log
  idle : t.tracker.pending = none → ∀ i command, ¬ PendingSince command t.log i
  busy : ∀ pending, t.tracker.pending = some pending →
    ∃ i command, Describes pending command t.log i ∧
      ∀ i' command', PendingSince command' t.log i' → i' = i

theorem Tracked.sound_empty : Tracked.Sound ⟨.empty, []⟩ where
  safe := safeLog_nil
  idle _ _ _ h := not_at_nil h.opened
  busy _ h := by cases h

/-! ## One call -/

/-- What a call can do. -/
inductive Handles (self : RequestTracker) : TrackerCall → TrackerAnswer → RequestTracker → Prop
  | refused (call : TrackerCall) (e : ProtocolError) : Handles self call (.refused e) self
  | ignored (frame : WorkerTranscriptionProgress) :
    Handles self (.transcriptionProgress frame) .ignored self
  | registered {command : WorkerCommand} {meetingId : Option Uuid} (hidle : self.pending = none)
      (hmeeting : command.meetingId = .ok meetingId) :
    Handles self (.register command) .accepted { self with pending := some {
      requestId := command.requestId
      operation := command.operation
      meetingId := meetingId
      sawRecording := false
      measured := none } }
  | recording {frame : WorkerProgress} {pending : PendingRequest}
      (hpending : self.pending = some pending) (hid : pending.requestId = frame.requestId)
      (hmeeting : pending.meetingId = some frame.meetingId) (hstate : frame.state = .recording)
      (hnew : pending.sawRecording = false) :
    Handles self (.progress frame) .accepted
      { self with pending := some { pending with sawRecording := true } }
  | heartbeat {frame : WorkerProgress} {pending : PendingRequest}
      (hpending : self.pending = some pending) (hid : pending.requestId = frame.requestId)
      (hmeeting : pending.meetingId = some frame.meetingId) (hstate : frame.state ≠ .recording) :
    Handles self (.progress frame) .accepted self
  | measured {frame : WorkerTranscriptionProgress} {pending : PendingRequest} {done total : UInt32}
      (hpending : self.pending = some pending) (hid : pending.requestId = frame.requestId)
      (hmeeting : pending.meetingId = some frame.meetingId)
      (hoperation : pending.operation ∈ [.transcriptCreate, .transcriptRetry])
      (hle : done ≤ total)
      (hlast : ∀ last, pending.measured = some last → total = last.2 ∧ last.1 ≤ done) :
    Handles self (.transcriptionProgress frame) (.measured ⟨frame.meetingId, done, total⟩)
      { self with pending := some { pending with measured := some (done, total) } }
  | finished {result : WorkerResult} {pending : PendingRequest}
      (hpending : self.pending = some pending) (hid : pending.requestId = result.requestId)
      (hrecorded : result.ok = true → pending.operation = .captureStart →
        pending.sawRecording = true) :
    Handles self (.terminal result) .accepted ⟨none, some result.requestId⟩
  | cancelled {pending : PendingRequest} (hpending : self.pending = some pending) :
    Handles self (.cancel pending.requestId) .accepted { self with pending := none }
  | missed {id : Uuid} (hother : ∀ pending, self.pending = some pending → pending.requestId ≠ id) :
    Handles self (.cancel id) .accepted self

namespace RequestTracker

variable (self : RequestTracker)

theorem register_handles (command : WorkerCommand) :
    Handles self (.register command) (self.handle (.register command)).1
      (self.handle (.register command)).2 := by
  change Handles self (.register command) (.ofResult (self.register command).1) (self.register command).2
  unfold register
  split
  · exact .refused _ _
  · rename_i hidle
    split
    · exact .refused _ _
    · cases hmeeting : command.meetingId with
      | error => exact .refused _ _
      | ok => exact .registered (Option.not_isSome_iff_eq_none.mp hidle) hmeeting

theorem progress_handles (frame : WorkerProgress) :
    Handles self (.progress frame) (self.handle (.progress frame)).1
      (self.handle (.progress frame)).2 := by
  change Handles self (.progress frame) (.ofResult (self.progress frame).1) (self.progress frame).2
  unfold progress
  split
  · exact .refused _ _
  · cases hpending : self.pending with
    | none => exact .refused _ _
    | some =>
      dsimp only
      split
      · exact .refused _ _
      · rename_i hid
        split
        · exact .refused _ _
        · rename_i hmatch
          rw [not_not] at hid
          rw [not_or, not_not] at hmatch
          split
          · rename_i hstate
            split
            · exact .refused _ _
            · rename_i hnew
              exact .recording hpending hid hmatch.1 hstate (Bool.eq_false_iff.mpr hnew)
          · rename_i hstate
            exact .heartbeat hpending hid hmatch.1 (by rw [hstate]; nofun)
          · rename_i hstate
            exact .heartbeat hpending hid hmatch.1 (by rw [hstate]; nofun)
          · rename_i hstate
            exact .heartbeat hpending hid hmatch.1 (by rw [hstate]; nofun)
          · exact .refused _ _

theorem transcriptionProgress_handles (frame : WorkerTranscriptionProgress) :
    Handles self (.transcriptionProgress frame) (self.handle (.transcriptionProgress frame)).1
      (self.handle (.transcriptionProgress frame)).2 := by
  change Handles self (.transcriptionProgress frame)
    (.ofMeasurement (self.transcriptionProgress frame).1) (self.transcriptionProgress frame).2
  unfold transcriptionProgress
  cases hpending : self.pending with
  | none => exact .ignored _
  | some =>
    dsimp only
    split
    · exact .ignored _
    · rename_i hmatch
      rw [not_or, not_or, not_not, not_not, not_not] at hmatch
      split
      · rename_i done total _ _
        split
        · exact .ignored _
        · rename_i hle
          rw [not_or, UInt32.not_lt] at hle
          split
          · exact .ignored _
          · rename_i hlast
            refine .measured hpending hmatch.1 hmatch.2.1 hmatch.2.2 hle.2 fun last heq => ?_
            rw [heq, Option.any_some, decide_eq_true_eq, not_or, not_not, UInt32.not_lt] at hlast
            exact hlast
      · exact .ignored _

theorem terminal_handles (result : WorkerResult) :
    Handles self (.terminal result) (self.handle (.terminal result)).1
      (self.handle (.terminal result)).2 := by
  change Handles self (.terminal result) (.ofResult (self.terminal result).1) (self.terminal result).2
  unfold terminal
  split
  · exact .refused _ _
  · cases hpending : self.pending with
    | none => exact .refused _ _
    | some =>
      dsimp only
      split
      · exact .refused _ _
      · rename_i hid
        split
        · exact .refused _ _
        · rename_i hshape
          rw [not_not] at hid
          rw [not_or] at hshape
          refine .finished hpending hid fun hok hoperation => ?_
          by_contra hnone
          exact hshape.2 ⟨hok, hoperation, hnone⟩

theorem cancel_handles (id : Uuid) :
    Handles self (.cancel id) (self.handle (.cancel id)).1 (self.handle (.cancel id)).2 := by
  change Handles self (.cancel id) .accepted (self.cancel id)
  unfold cancel
  split
  · rename_i hany
    obtain ⟨pending, hpending, hid⟩ := (Option.any_eq_true _ _).mp hany
    rw [decide_eq_true_eq] at hid
    exact hid ▸ .cancelled hpending
  · rename_i hany
    refine .missed fun pending hpending hid => hany ?_
    rw [hpending, Option.any_some, decide_eq_true_eq]
    exact hid

theorem handle_handles (call : TrackerCall) :
    Handles self call (self.handle call).1 (self.handle call).2 := by
  cases call with
  | register command => exact self.register_handles command
  | progress frame => exact self.progress_handles frame
  | transcriptionProgress frame => exact self.transcriptionProgress_handles frame
  | terminal result => exact self.terminal_handles result
  | cancel id => exact self.cancel_handles id

end RequestTracker

/-! ## The step -/

section Step

variable {log : List Logged} {e : Logged} {pending : PendingRequest} {command : WorkerCommand} {i : Nat}

/-- An entry that promises nothing: a refusal, a frame that is ignored, or the
end of a request that its client gave up. -/
theorem SafeEntry.of_silent
    (h : (∃ call error, e = ⟨call, .refused error⟩) ∨ (∃ call, e = ⟨call, .ignored⟩) ∨
      ∃ id, e = ⟨.cancel id, .accepted⟩) : SafeEntry log e := by
  rcases h with ⟨call, error, rfl⟩ | ⟨call, rfl⟩ | ⟨id, rfl⟩
  · exact ⟨nofun, nofun, nofun, nofun⟩
  · exact ⟨nofun, nofun, nofun, nofun⟩
  · exact ⟨nofun, nofun, nofun, nofun⟩

/-- The requests that are pending stay so. -/
theorem pendingSince_concat_of_kept (hregisters : ∀ c, ¬ e.Registers c)
    (hends : ∀ c k, PendingSince c log k → ¬ e.Ends c.requestId) :
    PendingSince command (log ++ [e]) i ↔ PendingSince command log i := by
  unfold PendingSince
  rw [openSince_concat]
  constructor
  · rintro (⟨hopen, -⟩ | ⟨-, hnew⟩)
    · exact hopen
    · exact absurd hnew (hregisters command)
  · exact fun hopen => .inl ⟨hopen, hends command i hopen⟩

/-- An entry that says nothing about the pending request. -/
theorem Describes.quiet (h : Describes pending command log i) (hends : ¬ e.Ends command.requestId)
    (hrecords : ¬ e.Records) (hmeasures : ∀ m, ¬ e.Measures m) :
    Describes pending command (log ++ [e]) i where
  since := openSince_concat.mpr (.inl ⟨h.since, hends⟩)
  requestId := h.requestId
  operation := h.operation
  meetingId := h.meetingId
  sawRecording hsaw := by
    simpa only [at_concat, hrecords, and_false, or_false] using h.sawRecording hsaw
  noRecording hsaw k hk hat := by
    apply h.noRecording hsaw k hk
    simpa only [at_concat, hrecords, and_false, or_false] using hat
  measured k last hk hat := by
    apply h.measured k last hk
    simpa only [at_concat, hmeasures, and_false, or_false] using hat

/-- The first report of a recording. -/
theorem Describes.recorded (h : Describes pending command log i) (hends : ¬ e.Ends command.requestId)
    (hmeasures : ∀ m, ¬ e.Measures m) (hnew : pending.sawRecording = false) (hrecords : e.Records) :
    Describes { pending with sawRecording := true } command (log ++ [e]) i where
  since := openSince_concat.mpr (.inl ⟨h.since, hends⟩)
  requestId := h.requestId
  operation := h.operation
  meetingId := h.meetingId
  sawRecording _ := by
    refine ⟨log.length, ⟨h.since.opened.lt_length, at_concat.mpr (.inr ⟨rfl, hrecords⟩)⟩, ?_⟩
    rintro k ⟨hk, hat⟩
    rcases at_concat.mp hat with hold | ⟨hlast, -⟩
    · exact absurd hold (h.noRecording hnew k hk)
    · exact hlast
  noRecording hsaw := by cases hsaw
  measured k last hk hat := by
    apply h.measured k last hk
    simpa only [at_concat, hmeasures, and_false, or_false] using hat

/-- A measurement that goes on from the last one. -/
theorem Describes.measuredOnce (h : Describes pending command log i)
    (hends : ¬ e.Ends command.requestId) (hrecords : ¬ e.Records) {m : TranscriptionProgress}
    (hmeasures : ∀ last, e.Measures last → last = m)
    (hlast : ∀ last, pending.measured = some last →
      m.audioSecondsTotal = last.2 ∧ last.1 ≤ m.audioSecondsDone) :
    Describes { pending with measured := some (m.audioSecondsDone, m.audioSecondsTotal) } command
      (log ++ [e]) i where
  since := openSince_concat.mpr (.inl ⟨h.since, hends⟩)
  requestId := h.requestId
  operation := h.operation
  meetingId := h.meetingId
  sawRecording hsaw := by
    simpa only [at_concat, hrecords, and_false, or_false] using h.sawRecording hsaw
  noRecording hsaw k hk hat := by
    apply h.noRecording hsaw k hk
    simpa only [at_concat, hrecords, and_false, or_false] using hat
  measured k last hk hat := by
    rw [Option.any_some, decide_eq_true_eq]
    rcases at_concat.mp hat with hold | ⟨-, hnew⟩
    · obtain ⟨found, hfound, hle⟩ := (Option.any_eq_true _ _).mp (h.measured k last hk hold)
      rw [decide_eq_true_eq] at hle
      obtain ⟨htotal, hdone⟩ := hlast found hfound
      exact ⟨hle.1.trans htotal.symm, UInt32.le_trans hle.2 hdone⟩
    · rw [hmeasures last hnew]
      exact ⟨rfl, UInt32.le_refl _⟩

end Step

namespace Tracked

variable {t : Tracked} {e : Logged}

/-- A request that is pending in the log is the pending one. -/
theorem Sound.describes (h : t.Sound) {pending : PendingRequest} {command : WorkerCommand} {i : Nat}
    (hpending : t.tracker.pending = some pending) (hsince : PendingSince command t.log i) :
    Describes pending command t.log i := by
  obtain ⟨i', command', hdescribes, hunique⟩ := h.busy pending hpending
  obtain rfl := hunique i command hsince
  -- one position has one command
  obtain ⟨found, hfound, hregisters⟩ := hsince.opened
  obtain ⟨found', hfound', hregisters'⟩ := hdescribes.since.opened
  rw [hfound, Option.some.injEq] at hfound'
  subst hfound'
  unfold Logged.Registers at hregisters hregisters'
  rw [hregisters, Logged.mk.injEq, TrackerCall.register.injEq] at hregisters'
  exact hregisters'.1 ▸ hdescribes

/-- The tracker and its pending request after an entry that ends nothing. -/
theorem Sound.concat_busy (h : t.Sound) {tracker : RequestTracker}
    {pending pending' : PendingRequest} (hsafe : SafeEntry t.log e)
    (hpending : t.tracker.pending = some pending) (hnext : tracker.pending = some pending')
    (hregisters : ∀ c, ¬ e.Registers c) (hends : ∀ id, ¬ e.Ends id)
    (hdescribes : ∀ command i, Describes pending command t.log i →
      Describes pending' command (t.log ++ [e]) i) : Sound ⟨tracker, t.log ++ [e]⟩ where
  safe := h.safe.concat hsafe
  idle hnone := by
    rw [hnext] at hnone
    cases hnone
  busy found hfound := by
    rw [hnext, Option.some.injEq] at hfound
    subst hfound
    obtain ⟨i, command, hcommand, hunique⟩ := h.busy pending hpending
    refine ⟨i, command, hdescribes command i hcommand, fun i' command' hsince => ?_⟩
    rw [pendingSince_concat_of_kept hregisters fun c _ _ => hends c.requestId] at hsince
    exact hunique i' command' hsince

/-- An entry that says nothing about what is pending. -/
theorem Sound.concat_quiet (h : t.Sound) (hsafe : SafeEntry t.log e)
    (hregisters : ∀ c, ¬ e.Registers c)
    (hends : ∀ c k, PendingSince c t.log k → ¬ e.Ends c.requestId) (hrecords : ¬ e.Records)
    (hmeasures : ∀ m, ¬ e.Measures m) : Sound ⟨t.tracker, t.log ++ [e]⟩ where
  safe := h.safe.concat hsafe
  idle hnone i command hsince := by
    rw [pendingSince_concat_of_kept hregisters hends] at hsince
    exact h.idle hnone i command hsince
  busy pending hpending := by
    obtain ⟨i, command, hcommand, hunique⟩ := h.busy pending hpending
    refine ⟨i, command, hcommand.quiet (hends command i hcommand.since) hrecords hmeasures,
      fun i' command' hsince => ?_⟩
    rw [pendingSince_concat_of_kept hregisters hends] at hsince
    exact hunique i' command' hsince

/-- The pending request ends. -/
theorem Sound.concat_ended (h : t.Sound) {tracker : RequestTracker} {pending : PendingRequest}
    (hsafe : SafeEntry t.log e) (hpending : t.tracker.pending = some pending)
    (hnext : tracker.pending = none) (hregisters : ∀ c, ¬ e.Registers c)
    (hends : e.Ends pending.requestId) : Sound ⟨tracker, t.log ++ [e]⟩ where
  safe := h.safe.concat hsafe
  idle _ i command hsince := by
    rcases openSince_concat.mp hsince with ⟨hopen, hkept⟩ | ⟨-, hnew⟩
    · rw [(h.describes hpending hopen).requestId] at hkept
      exact hkept hends
    · exact hregisters command hnew
  busy _ hsome := by
    rw [hnext] at hsome
    cases hsome

theorem Sound.call (h : t.Sound) (call : TrackerCall) : (t.call call).Sound := by
  have hhandles := t.tracker.handle_handles call
  unfold Tracked.call
  generalize (t.tracker.handle call).1 = answer at hhandles
  generalize (t.tracker.handle call).2 = tracker at hhandles
  cases hhandles with
  | refused =>
    exact h.concat_quiet (.of_silent (.inl ⟨_, _, rfl⟩)) (by simp) (by simp) (by simp) (by simp)
  | ignored =>
    exact h.concat_quiet (.of_silent (.inr (.inl ⟨_, rfl⟩))) (by simp) (by simp) (by simp) (by simp)
  | missed hother =>
    refine h.concat_quiet (.of_silent (.inr (.inr ⟨_, rfl⟩))) (by simp) (fun c k hsince => ?_)
      (by simp) (by simp)
    -- the identifier is not the one of the pending request
    cases hpending : t.tracker.pending with
    | none => exact absurd hsince (h.idle hpending k c)
    | some pending =>
      have hid := (h.describes hpending hsince).requestId
      simp only [Logged.ends_mk, reduceCtorEq, false_and, exists_false, TrackerCall.cancel.injEq,
        and_true, false_or]
      exact fun heq => hother pending hpending (heq ▸ hid.symm)
  | cancelled hpending =>
    exact h.concat_ended (.of_silent (.inr (.inr ⟨_, rfl⟩))) hpending rfl (by simp) (by simp)
  | registered hidle hmeeting =>
    rename_i command meetingId
    refine ⟨h.safe.concat ⟨fun c hc => ?_, nofun, nofun, nofun⟩, nofun, fun pending hpending => ?_⟩
    · exact h.idle hidle
    · cases hpending
      have hlast : ∀ {k : Nat} {P : Logged → Prop}, t.log.length < k →
          ¬ At (t.log ++ [⟨.register command, .accepted⟩]) k P := fun hk hat => by
        have hlength := hat.lt_length
        rw [List.length_append, List.length_singleton] at hlength
        omega
      refine ⟨t.log.length, command, ⟨openSince_concat.mpr (.inr ⟨rfl, by simp⟩), rfl, rfl, hmeeting,
        nofun, fun _ k hk => hlast hk, fun k last hk hat => absurd hat (hlast hk)⟩,
        fun i' command' hsince => ?_⟩
      · rcases openSince_concat.mp hsince with ⟨hopen, -⟩ | ⟨hlast, -⟩
        · exact absurd hopen (h.idle hidle i' command')
        · exact hlast
  | recording hpending hid hmeeting hstate hnew =>
    rename_i frame pending
    obtain ⟨i, command, hdescribes, -⟩ := h.busy pending hpending
    refine h.concat_busy ⟨nofun, fun found hfound => ?_, nofun, nofun⟩ hpending rfl (by simp)
      (by simp) fun command i hdescribes => ?_
    · cases hfound
      exact ⟨i, command, hdescribes.since, hdescribes.requestId.trans hid,
        hdescribes.meetingId.trans (congrArg _ hmeeting)⟩
    · exact hdescribes.recorded (by simp) (by simp) hnew (by simpa using hstate)
  | heartbeat hpending hid hmeeting hstate =>
    rename_i frame pending
    obtain ⟨i, command, hdescribes, -⟩ := h.busy pending hpending
    refine h.concat_quiet ⟨nofun, fun found hfound => ?_, nofun, nofun⟩ (by simp) (by simp)
      (by simpa using hstate) (by simp)
    cases hfound
    exact ⟨i, command, hdescribes.since, hdescribes.requestId.trans hid,
      hdescribes.meetingId.trans (congrArg _ hmeeting)⟩
  | measured hpending hid hmeeting hoperation hle hlast =>
    rename_i frame pending done total
    obtain ⟨i, command, hdescribes, -⟩ := h.busy pending hpending
    refine h.concat_busy ⟨nofun, nofun, fun found m hfound => ?_, nofun⟩ hpending rfl (by simp)
      (by simp) fun command i hdescribes => ?_
    · cases hfound
      refine ⟨rfl, hle, i, command, hdescribes.since, hdescribes.requestId.trans hid,
        hdescribes.meetingId.trans (congrArg _ hmeeting), hdescribes.operation ▸ hoperation,
        fun k last hk hat => ?_⟩
      obtain ⟨found, hfound, hkept⟩ := (Option.any_eq_true _ _).mp (hdescribes.measured k last hk hat)
      rw [decide_eq_true_eq] at hkept
      obtain ⟨htotal, hdone⟩ := hlast found hfound
      exact ⟨hkept.1.trans htotal.symm, UInt32.le_trans hkept.2 hdone⟩
    · exact hdescribes.measuredOnce (m := ⟨frame.meetingId, done, total⟩) (by simp) (by simp)
        (by simp) hlast
  | finished hpending hid hrecorded =>
    rename_i result pending
    obtain ⟨i, command, hdescribes, -⟩ := h.busy pending hpending
    refine h.concat_ended ⟨nofun, nofun, nofun, fun found hfound => ?_⟩ hpending rfl (by simp) ?_
    · cases hfound
      refine ⟨i, command, hdescribes.since, hdescribes.requestId.trans hid, fun hok hcapture => ?_⟩
      exact hdescribes.sawRecording (hrecorded hok (hdescribes.operation ▸ hcapture))
    · simpa using hid.symm

theorem sound_run (calls : List TrackerCall) : (run calls).Sound := by
  unfold run
  induction calls using List.reverseRecOn with
  | nil => exact sound_empty
  | append_singleton earlier call ih =>
    rw [List.foldl_append]
    exact ih.call call

end Tracked

/-! ## Runs -/

/-- What a tracker keeps while the worker writes whatever it likes. -/
structure TrackerSafe (t : Tracked) : Prop where
  /-- Every accepted frame is one for the pending request. -/
  entries : SafeLog t.log
  /-- At most one request is pending. -/
  single : ∀ i i' command command', PendingSince command t.log i →
    PendingSince command' t.log i' → i = i'
  /-- It is the one the tracker holds. -/
  held : ∀ id, t.tracker.pending.map PendingRequest.requestId = some id ↔
    ∃ i command, PendingSince command t.log i ∧ command.requestId = id
  /-- A registered request has at most one result. -/
  once : ∀ j j' id, At t.log j (Logged.Finishes id) → At t.log j' (Logged.Finishes id) → j < j' →
    ∃ k command, j < k ∧ k < j' ∧ command.requestId = id ∧ At t.log k (Logged.Registers command)
  /-- What is refused or ignored changes nothing. -/
  unchanged : ∀ call, (∃ e, (t.tracker.handle call).1 = .refused e) ∨
    (t.tracker.handle call).1 = .ignored → (t.call call).tracker = t.tracker

theorem Tracked.tracker_call_of_refused {t : Tracked} (call : TrackerCall)
    (h : (∃ e, (t.tracker.handle call).1 = .refused e) ∨ (t.tracker.handle call).1 = .ignored) :
    (t.call call).tracker = t.tracker := by
  have hhandles := t.tracker.handle_handles call
  change (t.tracker.handle call).2 = t.tracker
  generalize (t.tracker.handle call).1 = answer at hhandles h
  generalize (t.tracker.handle call).2 = tracker at hhandles
  cases hhandles with
  | refused | ignored | heartbeat | missed => rfl
  | _ => simp at h

theorem requestTracker_safe (calls : List TrackerCall) : TrackerSafe (Tracked.run calls) := by
  have hsound := Tracked.sound_run calls
  refine ⟨hsound.safe, fun i i' command command' hi hi' => ?_, fun id => ?_,
    fun j j' id hj hj' hlt => hsound.safe.registered_between hj hj' hlt,
    fun call => Tracked.tracker_call_of_refused call⟩
  · cases hpending : (Tracked.run calls).tracker.pending with
    | none => exact absurd hi (hsound.idle hpending i command)
    | some pending =>
      obtain ⟨k, -, -, hunique⟩ := hsound.busy pending hpending
      exact (hunique i command hi).trans (hunique i' command' hi').symm
  · cases hpending : (Tracked.run calls).tracker.pending with
    | none =>
      apply iff_of_false (by simp)
      rintro ⟨i, command, hsince, -⟩
      exact hsound.idle hpending i command hsince
    | some pending =>
      rw [Option.map_some, Option.some.injEq]
      constructor
      · rintro rfl
        obtain ⟨i, command, hdescribes, -⟩ := hsound.busy pending hpending
        exact ⟨i, command, hdescribes.since, hdescribes.requestId⟩
      · rintro ⟨i, command, hsince, rfl⟩
        exact (hsound.describes hpending hsince).requestId.symm

end YawnApp.SessionCore
