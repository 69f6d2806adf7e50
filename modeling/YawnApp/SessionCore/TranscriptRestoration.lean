import YawnApp.SessionCore.Library
import YawnApp.SessionCore.TranscriptRevision

set_option autoImplicit false

/-!
# The restoration coordinator (`transcript_restoration.rs`)

`restore_withheld_turn` stores a request, asks the worker for a successor view,
stores the result, publishes the view as the meeting's current transcript and
stores the commit.  `recover_incomplete` finds what earlier calls left without a
commit and goes on from where the receipts and the meeting record stand.

Each program below is the source's function with its durable steps in the
source's order; the checks between two steps are one look at the library.  The
failure injection of the tests has no counterpart: a crash is a trace cut
short, after any of the steps.
-/

namespace YawnApp.SessionCore

open YawnApp.Foundation

/-! ## Errors, reports and the runtime -/

inductive TranscriptRestoreWorkerError where
  | unavailable
  | refused
deriving DecidableEq, Repr

inductive TranscriptRestorationCoordinatorError where
  | coordination (e : MeetingCoordinationError)
  | meeting (e : MeetingError)
  | operationStore (e : OperationStoreError)
  | contract (e : OperationContractError)
  | worker (e : TranscriptRestoreWorkerError)
  | artifact (e : TranscriptArtifactError)
  | ambiguous (detail : String)
deriving DecidableEq, Repr

inductive RestorationQuarantineReason where
  | multipleNonterminalOperations
  | sourceOrPriorNoteChanged
  | invalidReceipt
  | invalidArtifact
  | workerUnavailable
  | storageUnavailable
deriving DecidableEq, Repr

inductive RestorationRecoveryAction where
  | retriedRequest
  | appliedValidatedResult
  | wroteMissingCommit
deriving DecidableEq, Repr

inductive RestorationRecoveryDisposition where
  | recovered (operationId : Uuid) (action : RestorationRecoveryAction)
  | quarantined (meetingId : Uuid) (operationId : Option Uuid)
      (reason : RestorationQuarantineReason)
deriving DecidableEq

/-- What one call is given from outside: the leases other callers hold, the
worker, a fresh identifier and the clock. -/
structure RestorationRuntime (B : Type) where
  held : Uuid → Bool
  worker : TranscriptRestoreWorkerArgs → Durable (Files B) TranscriptRestoreWorkerError Digests
  operationId : Uuid
  requestClock : UInt64
  /-- The clock when the commit of an operation is written. -/
  commitClock : Uuid → UInt64

abbrev RestorationProgram (B α : Type) : Type :=
  Durable (Library B) TranscriptRestorationCoordinatorError α

namespace TranscriptRestorationCoordinator

def quarantineReason : TranscriptRestorationCoordinatorError → RestorationQuarantineReason
  | .worker _ => .workerUnavailable
  | .artifact _ => .invalidArtifact
  | .ambiguous _ => .sourceOrPriorNoteChanged
  | .coordination _ => .storageUnavailable
  | .meeting _ | .operationStore _ | .contract _ => .invalidReceipt

/-! ## Checks -/

section Checks

variable {B : Type} [Platform B] [DecidableEq B]

def loadAndVerifyMeeting (read : Reader B) (meetingId : Uuid) :
    Except TranscriptRestorationCoordinatorError MeetingRecord := do
  let meeting ← (loadMeeting read meetingId.text).mapError .meeting
  (verifyRecordArtifacts read meeting).mapError .meeting
  return meeting

def requireNoPendingStorage (meeting : MeetingRecord) :
    Except TranscriptRestorationCoordinatorError Unit :=
  refuseIf meeting.pendingStorageOperation.isSome
    (.ambiguous "meeting has a pending storage operation")

/-- The current transcript, which each of the paths needs. -/
def requireCurrentTranscript (meeting : MeetingRecord) :
    Except TranscriptRestorationCoordinatorError ArtifactRef :=
  orRefuse meeting.artifacts.currentTranscript (.ambiguous "meeting has no current transcript")

/-- Whether a lifecycle and its note allow a restoration. -/
def lifecycleAccepts (lifecycle : MeetingLifecycle) (currentNote : Option NoteRevisionRef) : Bool :=
  match lifecycle with
  | .ready => currentNote.isSome
  | .transcriptReady | .summaryFailed => currentNote.isNone
  | _ => false

/-- `require_current_source`; `expectedPriorNote` is there when a stored request
says which note it found. -/
def requireCurrentSource (read : Reader B) (meeting : MeetingRecord) (meetingId : Uuid)
    (sourceTranscriptSha256 : String) (sourceTurnIndex : UInt32)
    (expectedPriorNote : Option (Option NoteRevisionRef)) :
    Except TranscriptRestorationCoordinatorError InspectedTranscriptRevision := do
  requireNoPendingStorage meeting
  refuseIf (meeting.meetingId ≠ meetingId.text) (.ambiguous "meeting identity changed")
  let current ← requireCurrentTranscript meeting
  refuseIf (current.sha256 ≠ sourceTranscriptSha256 ∨
      current.relativePath ≠ revisionPath sourceTranscriptSha256)
    (.ambiguous "meeting current transcript changed")
  refuseIf (¬ lifecycleAccepts meeting.lifecycle meeting.artifacts.currentNote)
    (.ambiguous "meeting lifecycle cannot accept restoration")
  checkSome expectedPriorNote fun expected =>
    refuseIf (meeting.artifacts.currentNote ≠ expected) (.ambiguous "meeting prior note changed")
  let source ← (inspectRevision read meetingId sourceTranscriptSha256).mapError .artifact
  refuseIf (source.digest ≠ sourceTranscriptSha256) (.artifact .malformed)
  refuseIf (sourceTurnIndex ∉ source.withheldSourceTurnIndices) (.artifact .nonWithheld)
  refuseIf (sourceTurnIndex ∈ source.restoredSourceTurnIndices)
    (.ambiguous "requested turn is already restored")
  return source

/-- `inspect_worker_result`. -/
def inspectWorkerResult (read : Reader B) (request : TranscriptRestorationRequest)
    (source : InspectedTranscriptRevision) (digests : Digests) :
    Except TranscriptRestorationCoordinatorError TranscriptRestorationResult := do
  (validateRestoreWorkerDigests digests request.sourceTranscriptSha256).mapError .contract
  let successor ← (inspectRevision read request.meetingId (digests.at "transcript")).mapError
    .artifact
  refuseIf (successor.digest ≠ digests.at "transcript") (.artifact .malformed)
  let view ← orRefuse successor.headView (.artifact .malformed)
  let result : TranscriptRestorationResult := {
    schema := .v1
    operationId := request.operationId
    meetingId := request.meetingId
    sourceTranscriptSha256 := request.sourceTranscriptSha256
    view := { relativePath := revisionPath successor.digest, sha256 := successor.digest }
    baseTranscriptSha256 := successor.baseTranscriptSha256
    parentTranscriptSha256 := view.parentTranscriptSha256
    restoredSourceTurnIndices := successor.restoredSourceTurnIndices }
  (validateRestoreWorkerJoin B digests request source.headView view result).mapError .contract
  return result

/-- `inspect_stored_result`. -/
def inspectStoredResult (read : Reader B) (request : TranscriptRestorationRequest)
    (result : TranscriptRestorationResult) :
    Except TranscriptRestorationCoordinatorError Unit := do
  let source ← (inspectRevision read request.meetingId
    request.sourceTranscriptSha256).mapError .artifact
  let successor ← (inspectRevision read request.meetingId result.view.sha256).mapError .artifact
  refuseIf (source.digest ≠ request.sourceTranscriptSha256 ∨
      successor.digest ≠ result.view.sha256) (.artifact .malformed)
  let view ← orRefuse successor.headView (.artifact .malformed)
  (validateRestorationJoin B request source.headView view result).mapError .contract
  refuseIf (successor.baseTranscriptSha256 ≠ result.baseTranscriptSha256 ∨
      successor.restoredSourceTurnIndices ≠ result.restoredSourceTurnIndices ∨
      request.sourceTurnIndex ∉ successor.withheldSourceTurnIndices) (.artifact .malformed)

/-- What `classify_restoration_recovery` says of a meeting. -/
def classify (request : TranscriptRestorationRequest)
    (result : Option TranscriptRestorationResult) (meeting : MeetingRecord)
    (current : ArtifactRef) :
    Except TranscriptRestorationCoordinatorError IncompleteOperationRecovery :=
  (classifyRestorationRecovery request result meeting.lifecycle current.sha256
    meeting.artifacts.currentNote).mapError .contract

/-- The record that publishes a result. -/
def publishedMeeting (meeting : MeetingRecord) (result : TranscriptRestorationResult) :
    MeetingRecord :=
  { meeting with
    lifecycle := .transcriptReady
    artifacts :=
      { meeting.artifacts with currentTranscript := some result.view, currentNote := none } }

/-- The commit of a published result. -/
def terminalCommit (committedAt : UInt64) (request : TranscriptRestorationRequest)
    (result : TranscriptRestorationResult) (meeting : MeetingRecord) (current : ArtifactRef)
    (meetingBytes : B) : MeetingOperationCommit where
  schema := .v1
  operationId := request.operationId
  meetingId := request.meetingId
  kind := .restoreWithheldTurn
  outcome := .transcriptRestored
  requestSha256 := digestPretty B request
  resultSha256 := digestPretty B result
  committedMeetingSha256 := Platform.sha256 meetingBytes
  committedAtEpochSeconds := committedAt
  lifecycle := meeting.lifecycle
  currentTranscriptSha256 := current.sha256
  currentNote := meeting.artifacts.currentNote

/-- The checks of `apply_result` up to the new record. -/
def prepareApply (read : Reader B) (request : TranscriptRestorationRequest)
    (result : TranscriptRestorationResult) :
    Except TranscriptRestorationCoordinatorError MeetingRecord := do
  let meeting ← loadAndVerifyMeeting read request.meetingId
  requireNoPendingStorage meeting
  let current ← requireCurrentTranscript meeting
  let recovery ← classify request (some result) meeting current
  refuseIf (recovery ≠ .applyValidatedResult)
    (.ambiguous "meeting no longer accepts the validated result")
  inspectStoredResult read request result
  return publishedMeeting meeting result

/-- The checks of `write_terminal_commit` up to the commit. -/
def prepareCommit (read : Reader B) (committedAt : UInt64)
    (request : TranscriptRestorationRequest) (result : TranscriptRestorationResult) :
    Except TranscriptRestorationCoordinatorError (MeetingOperationCommit × MeetingRecord × B) := do
  let meeting ← loadAndVerifyMeeting read request.meetingId
  requireNoPendingStorage meeting
  let current ← requireCurrentTranscript meeting
  let recovery ← classify request (some result) meeting current
  refuseIf (recovery ≠ .writeMissingCommit)
    (.ambiguous "meeting does not match the exact successor state")
  inspectStoredResult read request result
  let bytes ← (readBounded read "meeting.json" maxMeetingRecordBytes).mapError .meeting
  refuseIf (bytes ≠ toVecPretty meeting) (.ambiguous "meeting bytes are not canonical")
  return (terminalCommit committedAt request result meeting current bytes, meeting, bytes)

/-- The checks of `resume_request` before it looks at the result. -/
def resumableMeeting (read : Reader B) (request : TranscriptRestorationRequest) :
    Except TranscriptRestorationCoordinatorError (MeetingRecord × ArtifactRef) := do
  let meeting ← loadAndVerifyMeeting read request.meetingId
  requireNoPendingStorage meeting
  let current ← requireCurrentTranscript meeting
  return (meeting, current)

/-- `resume_request` without a stored result: the checks before it executes. -/
def prepareRetry (read : Reader B) (request : TranscriptRestorationRequest) :
    Except TranscriptRestorationCoordinatorError Unit := do
  let (meeting, current) ← resumableMeeting read request
  let recovery ← classify request none meeting current
  refuseIf (recovery ≠ .retryRequest) (.ambiguous "request-only recovery was not retryable")
  let _ ← requireCurrentSource read meeting request.meetingId request.sourceTranscriptSha256
    request.sourceTurnIndex (some request.priorNote)

/-- `resume_request` with a stored result: what is left to do. -/
def prepareResume (read : Reader B) (request : TranscriptRestorationRequest)
    (result : TranscriptRestorationResult) :
    Except TranscriptRestorationCoordinatorError IncompleteOperationRecovery := do
  let (meeting, current) ← resumableMeeting read request
  inspectStoredResult read request result
  classify request (some result) meeting current

/-- What the worker is asked for. -/
def workerArguments (request : TranscriptRestorationRequest) : TranscriptRestoreWorkerArgs where
  meetingId := request.meetingId
  sourceTranscriptSha256 := request.sourceTranscriptSha256
  sourceTurnIndex := request.sourceTurnIndex

/-- The checks of `execute_request` before the worker is asked. -/
def prepareExecute (read : Reader B) (request : TranscriptRestorationRequest) :
    Except TranscriptRestorationCoordinatorError
      (InspectedTranscriptRevision × TranscriptRestoreWorkerArgs) := do
  let meeting ← loadAndVerifyMeeting read request.meetingId
  let source ← requireCurrentSource read meeting request.meetingId
    request.sourceTranscriptSha256 request.sourceTurnIndex (some request.priorNote)
  (workerArguments request).validate.mapError .contract
  return (source, workerArguments request)

/-- The request of an admitted call. -/
def admitRequest (rt : RestorationRuntime B) (arguments : RestoreWithheldTurnUiArgs)
    (lib : Library B) :
    Except TranscriptRestorationCoordinatorError TranscriptRestorationRequest := do
  arguments.validate.mapError .contract
  (acquire rt.held arguments.meetingId).mapError .coordination
  refuseIf (nonterminalForMeeting lib.operations arguments.meetingId ≠ [])
    (.ambiguous "another nonterminal operation already exists")
  let read := lib.reader arguments.meetingId
  let meeting ← loadAndVerifyMeeting read arguments.meetingId
  let _ ← requireCurrentSource read meeting arguments.meetingId
    arguments.sourceTranscriptSha256 arguments.sourceTurnIndex none
  let request : TranscriptRestorationRequest := {
    schema := .v1
    operationId := rt.operationId
    meetingId := arguments.meetingId
    requestedAtEpochSeconds := nowEpochSeconds rt.requestClock
    sourceTranscriptSha256 := arguments.sourceTranscriptSha256
    sourceTurnIndex := arguments.sourceTurnIndex
    priorNote := meeting.artifacts.currentNote }
  request.validate.mapError .contract
  return request

end Checks

/-! ## Programs -/

section Programs

variable {B : Type} [Platform B] [DecidableEq B]

/-- `write_terminal_commit`. -/
def writeTerminalCommit (rt : RestorationRuntime B) (request : TranscriptRestorationRequest)
    (result : TranscriptRestorationResult) : RestorationProgram B Unit := do
  let (commit, meeting, bytes) ← Durable.inspect fun lib =>
    prepareCommit (lib.reader request.meetingId)
      (nowEpochSeconds (rt.commitClock request.operationId)) request result
  Durable.mapError .operationStore
    (Library.updateOperations (Receipts.writeCommit request.operationId commit meeting bytes))

/-- `apply_result`. -/
def applyResult (rt : RestorationRuntime B) (request : TranscriptRestorationRequest)
    (result : TranscriptRestorationResult) : RestorationProgram B Unit := do
  let meeting ← Durable.inspect fun lib => prepareApply (lib.reader request.meetingId) request result
  Durable.mapError .meeting (Library.writeMeeting request.meetingId meeting)
  writeTerminalCommit rt request result

/-- `execute_request`. -/
def executeRequest (rt : RestorationRuntime B) (request : TranscriptRestorationRequest) :
    RestorationProgram B Unit := do
  let (source, workerArguments) ← Durable.inspect fun lib =>
    prepareExecute (lib.reader request.meetingId) request
  let digests ← Durable.mapError .worker
    (Library.inMeeting request.meetingId (rt.worker workerArguments))
  let result ← Durable.inspect fun lib =>
    inspectWorkerResult (lib.reader request.meetingId) request source digests
  Durable.mapError .operationStore
    (Library.updateOperations (Receipts.writeResult B request.operationId (.restoration result)))
  applyResult rt request result

/-- `restore_withheld_turn`. -/
def restoreWithheldTurn (rt : RestorationRuntime B) (arguments : RestoreWithheldTurnUiArgs) :
    RestorationProgram B Uuid := do
  let request ← Durable.inspect (admitRequest rt arguments)
  Durable.mapError .operationStore
    (Library.updateOperations (Receipts.writeRequest B (.restoration request)))
  executeRequest rt request
  return request.operationId

/-- `resume_request`. -/
def resumeRequest (rt : RestorationRuntime B) (request : TranscriptRestorationRequest) :
    Option StoredOperationResult → RestorationProgram B RestorationRecoveryAction
  | none => do
    Durable.inspect fun lib => prepareRetry (lib.reader request.meetingId) request
    executeRequest rt request
    return .retriedRequest
  | some (.noteGeneration _) => do
    let _ ← Durable.inspect fun lib => resumableMeeting (lib.reader request.meetingId) request
    Durable.fail (.ambiguous "restoration request has another result schema")
  | some (.restoration result) => do
    match ← Durable.inspect fun lib =>
        prepareResume (lib.reader request.meetingId) request result with
    | .applyValidatedResult =>
      applyResult rt request result
      return .appliedValidatedResult
    | .writeMissingCommit =>
      writeTerminalCommit rt request result
      return .wroteMissingCommit
    | .retryRequest =>
      Durable.fail (.ambiguous "stored result unexpectedly classified as request-only")

/-- One round of the loop of `recover_incomplete`. -/
def recoverMeeting (rt : RestorationRuntime B) (meetingId : Uuid) :
    RestorationProgram B RestorationRecoveryDisposition := do
  match acquire rt.held meetingId with
  | .error _ => return .quarantined meetingId none .storageUnavailable
  | .ok () =>
    match ← Durable.inspect fun lib => .ok (nonterminalForMeeting lib.operations meetingId) with
    | [(operationId, receipt)] =>
      match receipt.request with
      | .noteGeneration _ =>
        return .quarantined meetingId (some operationId) .multipleNonterminalOperations
      | .restoration request =>
        match ← Durable.attempt (resumeRequest rt request receipt.result) with
        | .ok action => return .recovered operationId action
        | .error e => return .quarantined meetingId (some operationId) (quarantineReason e)
    | _ => return .quarantined meetingId none .multipleNonterminalOperations

/-- The loop of `recover_incomplete`. -/
def recoverMeetings (rt : RestorationRuntime B) (meetings : List Uuid) :
    RestorationProgram B (List RestorationRecoveryDisposition) :=
  Durable.forEach (recoverMeeting rt) meetings

/-- The meetings that have a pending restoration, each once and in order. -/
def restorationMeetings (operations : Receipts) : List Uuid :=
  ((operations.entries.filterMap fun entry =>
    match entry.2.nonterminal, entry.2.request with
    | true, .restoration request => some request.meetingId
    | _, _ => none).dedup).insertionSort fun left right => left.text ≤ right.text

/-- `recover_incomplete`. -/
def recoverIncomplete (rt : RestorationRuntime B) :
    RestorationProgram B (List RestorationRecoveryDisposition) := do
  let meetings ← Durable.inspect fun lib => .ok (restorationMeetings lib.operations)
  recoverMeetings rt meetings

end Programs

end TranscriptRestorationCoordinator

end YawnApp.SessionCore
