import YawnApp.SessionCore.Library

set_option autoImplicit false

/-!
# The note coordinator (`note_generation.rs`)

`regenerate_note` stores a request, asks the worker for a note, stores whether
it was accepted, publishes the outcome in the meeting record and stores the
commit.  `recover_incomplete` goes on from where earlier calls left the receipts
and the record.  The worker and the inspector of notes are processes outside
the crate; they are given to each call.

As in the restoration coordinator each program has the durable steps of its
source function in order, and the checks between two steps are one look.
-/

namespace YawnApp.SessionCore

open YawnApp.Foundation

/-! ## Errors, reports and the runtime -/

inductive NoteWorkerResult where
  | accepted (digests : Digests)
  | rejected (failure : NoteCreateWorkerFailure)
deriving DecidableEq

inductive NoteGenerationWorkerError where
  | unavailable
  | refused
deriving DecidableEq, Repr

inductive NoteArtifactError where
  | missing
  | changed
  | malformed
deriving DecidableEq, Repr

inductive NoteGenerationCoordinatorError where
  | coordination (e : MeetingCoordinationError)
  | meeting (e : MeetingError)
  | operationStore (e : OperationStoreError)
  | contract (e : OperationContractError)
  | worker (e : NoteGenerationWorkerError)
  | artifact (e : NoteArtifactError)
  | ambiguous (detail : String)
deriving DecidableEq, Repr

inductive NoteGenerationQuarantineReason where
  | multipleNonterminalOperations
  | sourceChanged
  | invalidReceipt
  | invalidArtifact
  | workerUnavailable
  | storageUnavailable
deriving DecidableEq, Repr

inductive NoteGenerationRecoveryAction where
  | retriedRequest
  | appliedValidatedResult
  | wroteMissingCommit
deriving DecidableEq, Repr

inductive NoteGenerationRecoveryDisposition where
  | recovered (operationId : Uuid) (action : NoteGenerationRecoveryAction)
  | quarantined (meetingId : Uuid) (operationId : Option Uuid)
      (reason : NoteGenerationQuarantineReason)
deriving DecidableEq

/-- What one call is given from outside. -/
structure NoteGenerationRuntime (B : Type) where
  held : Uuid → Bool
  worker : NoteCreateWorkerArgs → Durable (Files B) NoteGenerationWorkerError NoteWorkerResult
  /-- The `note.inspect` seam. -/
  inspect : Reader B → Uuid → NoteRevisionRef → Except NoteArtifactError Digests
  operationId : Uuid
  requestClock : UInt64
  /-- The clock when the commit of an operation is written. -/
  commitClock : Uuid → UInt64

abbrev NoteProgram (B α : Type) : Type := Durable (Library B) NoteGenerationCoordinatorError α

namespace NoteGenerationCoordinator

def quarantineReason : NoteGenerationCoordinatorError → NoteGenerationQuarantineReason
  | .worker _ => .workerUnavailable
  | .artifact _ => .invalidArtifact
  | .operationStore _ | .contract _ => .invalidReceipt
  | .coordination _ => .storageUnavailable
  | .meeting _ | .ambiguous _ => .sourceChanged

/-! ## Checks -/

section Checks

variable {B : Type} [Platform B] [DecidableEq B]

def loadAndVerifyMeeting (read : Reader B) (meetingId : Uuid) :
    Except NoteGenerationCoordinatorError MeetingRecord := do
  let meeting ← (loadMeeting read meetingId.text).mapError .meeting
  (verifyRecordArtifacts read meeting).mapError .meeting
  return meeting

def requireNoPendingStorage (meeting : MeetingRecord) :
    Except NoteGenerationCoordinatorError Unit :=
  refuseIf meeting.pendingStorageOperation.isSome
    (.ambiguous "meeting has a pending storage operation")

def requireCurrentTranscript (meeting : MeetingRecord) :
    Except NoteGenerationCoordinatorError ArtifactRef :=
  orRefuse meeting.artifacts.currentTranscript (.ambiguous "meeting has no current transcript")

/-- Whether a lifecycle and its note allow a generation. -/
def canGenerate (currentNote : Option NoteRevisionRef) (lifecycle : MeetingLifecycle) : Bool :=
  match currentNote, lifecycle with
  | none, .transcriptReady => true
  | none, .summaryFailed => true
  | some _, .ready => true
  | _, _ => false

/-- `require_source`. -/
def requireSource (meeting : MeetingRecord) (meetingId : Uuid) (source : String) :
    Except NoteGenerationCoordinatorError Unit := do
  requireNoPendingStorage meeting
  refuseIf (meeting.meetingId ≠ meetingId.text) (.ambiguous "meeting identity changed")
  let current ← requireCurrentTranscript meeting
  refuseIf (current.sha256 ≠ source ∨ current.relativePath ≠ "transcript/" ++ source ++ ".json")
    (.ambiguous "meeting current transcript changed")
  refuseIf (¬ canGenerate meeting.artifacts.currentNote meeting.lifecycle)
    (.ambiguous "meeting lifecycle cannot accept note generation")

/-- The note two digests name. -/
def noteRevision (digests : Digests) (sourceTranscriptSha256 : String) : NoteRevisionRef where
  json := {
    relativePath := "notes/" ++ digests.at "note" ++ ".json"
    sha256 := digests.at "note" }
  markdown := {
    relativePath := "notes/" ++ digests.at "note-markdown" ++ ".md"
    sha256 := digests.at "note-markdown" }
  sourceTranscriptSha256

/-- `inspect_accepted`. -/
def inspectAccepted (rt : NoteGenerationRuntime B) (read : Reader B)
    (request : NoteGenerationRequest) (digests : Digests) :
    Except NoteGenerationCoordinatorError NoteGenerationResult := do
  (validateNoteWorkerDigests digests request.sourceTranscriptSha256).mapError .contract
  let note := noteRevision digests request.sourceTranscriptSha256
  let result : NoteGenerationResult := {
    schema := .v1
    operationId := request.operationId
    meetingId := request.meetingId
    sourceTranscriptSha256 := request.sourceTranscriptSha256
    status := .accepted
    note := some note
    failureCode := none }
  let inspected ← (rt.inspect read request.meetingId note).mapError .artifact
  (validateNoteWorkerJoin inspected request result).mapError .contract
  refuseIf (inspected ≠ digests) (.artifact .changed)
  return result

/-- `rejected_result` and the join of the rejection. -/
def inspectRejected (request : NoteGenerationRequest) (failure : NoteCreateWorkerFailure) :
    Except NoteGenerationCoordinatorError NoteGenerationResult := do
  let code ← failure.validate.mapError .contract
  let result : NoteGenerationResult := {
    schema := .v1
    operationId := request.operationId
    meetingId := request.meetingId
    sourceTranscriptSha256 := request.sourceTranscriptSha256
    status := .rejected
    note := none
    failureCode := some code }
  (validateNoteWorkerFailureJoin failure request result).mapError .contract
  return result

/-- The result of what the worker answered. -/
def inspectWorkerResult (rt : NoteGenerationRuntime B) (read : Reader B)
    (request : NoteGenerationRequest) :
    NoteWorkerResult → Except NoteGenerationCoordinatorError NoteGenerationResult
  | .accepted digests => inspectAccepted rt read request digests
  | .rejected failure => inspectRejected request failure

/-- `inspect_stored_result`. -/
def inspectStoredResult (rt : NoteGenerationRuntime B) (read : Reader B)
    (request : NoteGenerationRequest) (result : NoteGenerationResult) :
    Except NoteGenerationCoordinatorError Unit := do
  result.validate.mapError .contract
  if result.status = .accepted then
    let note ← orRefuse result.note (.artifact .malformed)
    let inspected ← (rt.inspect read request.meetingId note).mapError .artifact
    (validateNoteWorkerJoin inspected request result).mapError .contract

/-- What `classify_note_recovery` says of a meeting. -/
def classify (request : NoteGenerationRequest) (result : Option NoteGenerationResult)
    (meeting : MeetingRecord) (current : ArtifactRef) :
    Except NoteGenerationCoordinatorError IncompleteOperationRecovery :=
  (classifyNoteRecovery request result meeting.lifecycle current.sha256
    meeting.artifacts.currentNote).mapError .contract

/-- The record that publishes a result. -/
def publishedMeeting (request : NoteGenerationRequest) (meeting : MeetingRecord)
    (result : NoteGenerationResult) : MeetingRecord :=
  match result.status, request.priorNote with
  | .accepted, _ =>
    { meeting with
      lifecycle := .ready
      artifacts := { meeting.artifacts with currentNote := result.note } }
  | .rejected, some prior =>
    { meeting with
      lifecycle := .ready
      artifacts := { meeting.artifacts with currentNote := some prior } }
  | .rejected, none =>
    { meeting with
      lifecycle := .summaryFailed
      artifacts := { meeting.artifacts with currentNote := none } }

/-- The commit of a published result. -/
def terminalCommit (committedAt : UInt64) (request : NoteGenerationRequest)
    (result : NoteGenerationResult) (meeting : MeetingRecord) (current : ArtifactRef)
    (meetingBytes : B) : MeetingOperationCommit where
  schema := .v1
  operationId := request.operationId
  meetingId := request.meetingId
  kind := .generateNote
  outcome := result.status.outcome
  requestSha256 := digestPretty B request
  resultSha256 := digestPretty B result
  committedMeetingSha256 := Platform.sha256 meetingBytes
  committedAtEpochSeconds := committedAt
  lifecycle := meeting.lifecycle
  currentTranscriptSha256 := current.sha256
  currentNote := meeting.artifacts.currentNote

/-- The checks `resume_request` and `apply_result` start with. -/
def resumableMeeting (read : Reader B) (request : NoteGenerationRequest) :
    Except NoteGenerationCoordinatorError (MeetingRecord × ArtifactRef) := do
  let meeting ← loadAndVerifyMeeting read request.meetingId
  requireNoPendingStorage meeting
  let current ← requireCurrentTranscript meeting
  return (meeting, current)

/-- The checks of `apply_result` up to the new record; `none` when the record
stands where the result puts it already. -/
def prepareApply (rt : NoteGenerationRuntime B) (read : Reader B)
    (request : NoteGenerationRequest) (result : NoteGenerationResult) :
    Except NoteGenerationCoordinatorError (Option MeetingRecord) := do
  let (meeting, current) ← resumableMeeting read request
  match ← classify request (some result) meeting current with
  | .writeMissingCommit => return none
  | .applyValidatedResult =>
    inspectStoredResult rt read request result
    return some (publishedMeeting request meeting result)
  | .retryRequest => .error (.ambiguous "meeting no longer accepts the validated result")

/-- The checks of `write_terminal_commit` up to the commit. -/
def prepareCommit (rt : NoteGenerationRuntime B) (read : Reader B) (committedAt : UInt64)
    (request : NoteGenerationRequest) (result : NoteGenerationResult) :
    Except NoteGenerationCoordinatorError (MeetingOperationCommit × MeetingRecord × B) := do
  let (meeting, current) ← resumableMeeting read request
  let recovery ← classify request (some result) meeting current
  refuseIf (recovery ≠ .writeMissingCommit)
    (.ambiguous "meeting does not match the exact successor state")
  inspectStoredResult rt read request result
  let bytes ← (readBounded read "meeting.json" maxMeetingRecordBytes).mapError .meeting
  refuseIf (bytes ≠ toVecPretty meeting) (.ambiguous "meeting bytes are not canonical")
  return (terminalCommit committedAt request result meeting current bytes, meeting, bytes)

/-- `resume_request` without a stored result: the checks before it executes. -/
def prepareRetry (read : Reader B) (request : NoteGenerationRequest) :
    Except NoteGenerationCoordinatorError Unit := do
  let (meeting, current) ← resumableMeeting read request
  let recovery ← classify request none meeting current
  refuseIf (recovery ≠ .retryRequest) (.ambiguous "request-only recovery was not retryable")

/-- `resume_request` with a stored result: what is left to do. -/
def prepareResume (rt : NoteGenerationRuntime B) (read : Reader B)
    (request : NoteGenerationRequest) (result : NoteGenerationResult) :
    Except NoteGenerationCoordinatorError IncompleteOperationRecovery := do
  let (meeting, current) ← resumableMeeting read request
  inspectStoredResult rt read request result
  classify request (some result) meeting current

/-- What the worker is asked for a request. -/
def workerArguments (request : NoteGenerationRequest) : NoteCreateWorkerArgs where
  meetingId := request.meetingId
  sourceTranscriptSha256 := request.sourceTranscriptSha256
  speakerLabelOverrides := request.speakerLabelOverrides
  vocabularyReplacements := request.vocabularyReplacements
  preMeetingContext := request.preMeetingContext

/-- The checks of `execute_request` before the worker is asked. -/
def prepareExecute (read : Reader B) (request : NoteGenerationRequest) :
    Except NoteGenerationCoordinatorError NoteCreateWorkerArgs := do
  let meeting ← loadAndVerifyMeeting read request.meetingId
  requireSource meeting request.meetingId request.sourceTranscriptSha256
  return workerArguments request

/-- The request of an admitted call. -/
def admitRequest (rt : NoteGenerationRuntime B)
    (sourceAdmission : Reader B → Except NoteGenerationCoordinatorError Unit)
    (arguments : RegenerateNoteUiArgs) (lib : Library B) :
    Except NoteGenerationCoordinatorError NoteGenerationRequest := do
  arguments.validate.mapError .contract
  (acquire rt.held arguments.meetingId).mapError .coordination
  refuseIf (nonterminalForMeeting lib.operations arguments.meetingId ≠ [])
    (.ambiguous "another nonterminal operation already exists")
  let read := lib.reader arguments.meetingId
  let meeting ← loadAndVerifyMeeting read arguments.meetingId
  requireSource meeting arguments.meetingId arguments.sourceTranscriptSha256
  sourceAdmission read
  let request : NoteGenerationRequest := {
    schema := if meeting.artifacts.currentNote.isSome then .v2 else .v1
    operationId := rt.operationId
    meetingId := arguments.meetingId
    requestedAtEpochSeconds := nowEpochSeconds rt.requestClock
    sourceTranscriptSha256 := arguments.sourceTranscriptSha256
    speakerLabelOverrides := arguments.speakerLabelOverrides
    vocabularyReplacements := arguments.vocabularyReplacements
    priorNote := meeting.artifacts.currentNote
    preMeetingContext := arguments.preMeetingContext }
  request.validate.mapError .contract
  return request

end Checks

/-! ## Programs -/

section Programs

variable {B : Type} [Platform B] [DecidableEq B]

/-- `write_terminal_commit`. -/
def writeTerminalCommit (rt : NoteGenerationRuntime B) (request : NoteGenerationRequest)
    (result : NoteGenerationResult) : NoteProgram B Unit := do
  let (commit, meeting, bytes) ← Durable.inspect fun lib =>
    prepareCommit rt (lib.reader request.meetingId)
      (nowEpochSeconds (rt.commitClock request.operationId)) request result
  Durable.mapError .operationStore
    (Library.updateOperations (Receipts.writeCommit request.operationId commit meeting bytes))

/-- `apply_result`. -/
def applyResult (rt : NoteGenerationRuntime B) (request : NoteGenerationRequest)
    (result : NoteGenerationResult) : NoteProgram B Unit := do
  match ← Durable.inspect fun lib =>
      prepareApply rt (lib.reader request.meetingId) request result with
  | none => writeTerminalCommit rt request result
  | some meeting =>
    Durable.mapError .meeting (Library.writeMeeting request.meetingId meeting)
    writeTerminalCommit rt request result

/-- `execute_request`. -/
def executeRequest (rt : NoteGenerationRuntime B) (request : NoteGenerationRequest) :
    NoteProgram B Unit := do
  let workerArguments ← Durable.inspect fun lib =>
    prepareExecute (lib.reader request.meetingId) request
  let answer ← Durable.mapError .worker
    (Library.inMeeting request.meetingId (rt.worker workerArguments))
  let result ← Durable.inspect fun lib =>
    inspectWorkerResult rt (lib.reader request.meetingId) request answer
  Durable.mapError .operationStore
    (Library.updateOperations (Receipts.writeResult B request.operationId (.noteGeneration result)))
  applyResult rt request result

/-- `regenerate_note_with`; `regenerate_note` is the case without admission of
its own. -/
def regenerateNoteWith (rt : NoteGenerationRuntime B)
    (sourceAdmission : Reader B → Except NoteGenerationCoordinatorError Unit)
    (arguments : RegenerateNoteUiArgs) : NoteProgram B Uuid := do
  let request ← Durable.inspect (admitRequest rt sourceAdmission arguments)
  Durable.mapError .operationStore
    (Library.updateOperations (Receipts.writeRequest B (.noteGeneration request)))
  executeRequest rt request
  return request.operationId

/-- `regenerate_note`. -/
def regenerateNote (rt : NoteGenerationRuntime B) (arguments : RegenerateNoteUiArgs) :
    NoteProgram B Uuid := regenerateNoteWith rt (fun _ => .ok ()) arguments

/-- `resume_request`. -/
def resumeRequest (rt : NoteGenerationRuntime B) (request : NoteGenerationRequest) :
    Option StoredOperationResult → NoteProgram B NoteGenerationRecoveryAction
  | none => do
    Durable.inspect fun lib => prepareRetry (lib.reader request.meetingId) request
    executeRequest rt request
    return .retriedRequest
  | some (.restoration _) => do
    let _ ← Durable.inspect fun lib => resumableMeeting (lib.reader request.meetingId) request
    Durable.fail (.ambiguous "note request has another result schema")
  | some (.noteGeneration result) => do
    match ← Durable.inspect fun lib =>
        prepareResume rt (lib.reader request.meetingId) request result with
    | .applyValidatedResult =>
      applyResult rt request result
      return .appliedValidatedResult
    | .writeMissingCommit =>
      writeTerminalCommit rt request result
      return .wroteMissingCommit
    | .retryRequest =>
      Durable.fail (.ambiguous "stored result unexpectedly classified as request-only")

/-- One round of the loop of `recover_incomplete`. -/
def recoverMeeting (rt : NoteGenerationRuntime B) (meetingId : Uuid) :
    NoteProgram B NoteGenerationRecoveryDisposition := do
  match acquire rt.held meetingId with
  | .error _ => return .quarantined meetingId none .storageUnavailable
  | .ok () =>
    match ← Durable.inspect fun lib => .ok (nonterminalForMeeting lib.operations meetingId) with
    | [(operationId, receipt)] =>
      match receipt.request with
      | .restoration _ =>
        return .quarantined meetingId (some operationId) .multipleNonterminalOperations
      | .noteGeneration request =>
        match ← Durable.attempt (resumeRequest rt request receipt.result) with
        | .ok action => return .recovered operationId action
        | .error e => return .quarantined meetingId (some operationId) (quarantineReason e)
    | _ => return .quarantined meetingId none .multipleNonterminalOperations

/-- The loop of `recover_incomplete`. -/
def recoverMeetings (rt : NoteGenerationRuntime B) (meetings : List Uuid) :
    NoteProgram B (List NoteGenerationRecoveryDisposition) :=
  Durable.forEach (recoverMeeting rt) meetings

/-- The meetings that have a pending note request, each once and in order. -/
def noteMeetings (operations : Receipts) : List Uuid :=
  ((operations.entries.filterMap fun entry =>
    match entry.2.nonterminal, entry.2.request with
    | true, .noteGeneration request => some request.meetingId
    | _, _ => none).dedup).insertionSort fun left right => left.text ≤ right.text

/-- `recover_incomplete`. -/
def recoverIncomplete (rt : NoteGenerationRuntime B) :
    NoteProgram B (List NoteGenerationRecoveryDisposition) := do
  let meetings ← Durable.inspect fun lib => .ok (noteMeetings lib.operations)
  recoverMeetings rt meetings

end Programs

end NoteGenerationCoordinator

end YawnApp.SessionCore
