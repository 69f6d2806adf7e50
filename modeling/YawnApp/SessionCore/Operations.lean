import Mathlib.Data.List.Sort
import Mathlib.Order.Defs.LinearOrder
import YawnApp.SessionCore.Receipts

set_option autoImplicit false

/-!
# Product operation contracts (`operations.rs`, checks)

What makes a receipt well formed, what makes a request, a result and a commit
one operation, and what a recovery may conclude from the receipts it finds and
the place where the meeting record stands.  The two classifiers at the end are
pure: they see the receipts, the lifecycle and the two current pointers of the
meeting and nothing else.
-/

namespace YawnApp.SessionCore

open YawnApp.Foundation

inductive OperationContractError where
  | malformed (detail : String)
deriving DecidableEq, Repr

inductive IncompleteOperationRecovery where
  | retryRequest
  | applyValidatedResult
  | writeMissingCommit
deriving DecidableEq, Repr

/-! ## Parts of receipts -/

def validateDigest (value : String) : Except OperationContractError Unit :=
  refuseIf (¬ validSha256 value) (.malformed "digest must be lowercase SHA-256")

def validateNote (note : NoteRevisionRef) : Except OperationContractError Unit :=
  note.validate.mapError fun _ => .malformed "note revision is invalid"

/-- `values.windows(2).all(|pair| pair[0] < pair[1])`. -/
def strictlyIncreasing : List UInt32 → Bool
  | a :: b :: rest => decide (a < b) && strictlyIncreasing (b :: rest)
  | _ => true

/-- `char::is_control`. -/
def isControl (c : Char) : Bool := c.toNat < 32 || (127 ≤ c.toNat && c.toNat < 160)

/-- `char::is_whitespace`, the Unicode `White_Space` property. -/
def isWhitespace (c : Char) : Bool :=
  (9 ≤ c.toNat && c.toNat ≤ 13) || c.toNat == 0x20 || c.toNat == 0x85 || c.toNat == 0xA0 ||
    c.toNat == 0x1680 || (0x2000 ≤ c.toNat && c.toNat ≤ 0x200A) || c.toNat == 0x2028 ||
    c.toNat == 0x2029 || c.toNat == 0x202F || c.toNat == 0x205F || c.toNat == 0x3000

/-- `value.trim() == value`: neither end is white space. -/
def isTrimmed (value : String) : Bool :=
  (value.toList.head?.all fun c => !isWhitespace c) &&
    (value.toList.getLast?.all fun c => !isWhitespace c)

/-- The order of the closed source-speaker vocabulary. -/
def sourceSpeakerRank : Option String → Option Nat
  | none => some 0
  | some "Me" => some 1
  | some "Them" => some 2
  | some _ => none

/-- The loop of `validate_speaker_label_overrides`; `previous` is the rank of
the override before. -/
def validateSpeakerLabelOverridesFrom :
    Option Nat → List SpeakerLabelOverride → Except OperationContractError Unit
  | _, [] => .ok ()
  | previous, override :: rest => do
    let rank ← orRefuse (sourceSpeakerRank override.sourceSpeaker)
      (.malformed "speaker label overlay names an unknown source group")
    refuseIf (previous.any fun prior => prior ≥ rank)
      (.malformed "speaker label overlay source groups are not unique and ordered")
    refuseIf (override.replacement = "" ∨ override.replacement.utf8ByteSize > 80 ∨
        ¬ isTrimmed override.replacement ∨ override.replacement.toList.any isControl)
      (.malformed "speaker label overlay replacement is invalid")
    validateSpeakerLabelOverridesFrom (some rank) rest

def validateSpeakerLabelOverrides (overrides : List SpeakerLabelOverride) :
    Except OperationContractError Unit := do
  refuseIf (overrides.length > 3) (.malformed "speaker label overlay has too many source groups")
  validateSpeakerLabelOverridesFrom none overrides

/-- The loop of `vocabulary_range_replacements_are_valid`: in order, and never
overlapping inside a turn. -/
def vocabularyRangeReplacementsFrom :
    Option VocabularyRangeReplacement → List VocabularyRangeReplacement → Bool
  | _, [] => true
  | previous, r :: rest =>
    decide (r.charStart < r.charEnd) && r.replacement != "" &&
      decide (r.replacement.utf8ByteSize ≤ 512) && !r.replacement.toList.any isControl &&
      validSha256 r.sourceSha256 &&
      (previous.all fun prior =>
        decide (prior.turn < r.turn ∨ (prior.turn = r.turn ∧ (prior.charStart < r.charStart ∨
          (prior.charStart = r.charStart ∧ prior.charEnd < r.charEnd)))) &&
        !(prior.turn == r.turn && decide (r.charStart < prior.charEnd))) &&
      vocabularyRangeReplacementsFrom (some r) rest

def vocabularyRangeReplacementsAreValid (replacements : List VocabularyRangeReplacement) : Bool :=
  decide (replacements.length ≤ 64) && vocabularyRangeReplacementsFrom none replacements

def validateVocabularyReplacements (replacements : List VocabularyRangeReplacement) :
    Except OperationContractError Unit :=
  refuseIf (¬ vocabularyRangeReplacementsAreValid replacements)
    (.malformed "vocabulary replacement overlay is invalid")

def maxPreMeetingContextBytes : Nat := 16 * 1024

def validatePreMeetingContext (value : Option String) : Except OperationContractError Unit :=
  checkSome value fun text =>
    refuseIf (text = "" ∨ text.utf8ByteSize > maxPreMeetingContextBytes ∨
        text.toList.any fun c => isControl c && c != '\n' && c != '\t')
      (.malformed "pre-meeting context is invalid")

/-! ## Each receipt by itself -/

def TranscriptView.validate (v : TranscriptView) : Except OperationContractError Unit := do
  validateDigest v.baseTranscriptSha256
  validateDigest v.parentTranscriptSha256
  refuseIf (v.restoredSourceTurnIndices = [] ∨ ¬ strictlyIncreasing v.restoredSourceTurnIndices)
    (.malformed "restored turn indices must be nonempty, unique, and sorted")

def RestoreWithheldTurnUiArgs.validate (a : RestoreWithheldTurnUiArgs) :
    Except OperationContractError Unit := validateDigest a.sourceTranscriptSha256

def TranscriptRestoreWorkerArgs.validate (a : TranscriptRestoreWorkerArgs) :
    Except OperationContractError Unit := validateDigest a.sourceTranscriptSha256

def RegenerateNoteUiArgs.validate (a : RegenerateNoteUiArgs) :
    Except OperationContractError Unit := do
  validateDigest a.sourceTranscriptSha256
  validateSpeakerLabelOverrides a.speakerLabelOverrides
  validateVocabularyReplacements a.vocabularyReplacements
  validatePreMeetingContext a.preMeetingContext

/-- A note that is kept or replaced must be a note of the request's source. -/
def validateNoteOf (note : NoteRevisionRef) (sourceTranscriptSha256 detail : String) :
    Except OperationContractError Unit := do
  validateNote note
  refuseIf (note.sourceTranscriptSha256 ≠ sourceTranscriptSha256) (.malformed detail)

def TranscriptRestorationRequest.validate (r : TranscriptRestorationRequest) :
    Except OperationContractError Unit := do
  refuseIf (r.requestedAtEpochSeconds = 0) (.malformed "request time must be positive")
  validateDigest r.sourceTranscriptSha256
  checkSome r.priorNote fun note =>
    validateNoteOf note r.sourceTranscriptSha256 "prior note binds another transcript"

def TranscriptRestorationResult.validate (r : TranscriptRestorationResult) :
    Except OperationContractError Unit := do
  validateDigest r.sourceTranscriptSha256
  validateDigest r.baseTranscriptSha256
  validateDigest r.parentTranscriptSha256
  (r.view.validateDigestNamed "transcript" "json").mapError fun _ =>
    .malformed "transcript view is invalid"
  refuseIf (r.parentTranscriptSha256 ≠ r.sourceTranscriptSha256)
    (.malformed "restoration result parent differs from request source")
  refuseIf (r.restoredSourceTurnIndices = [] ∨ ¬ strictlyIncreasing r.restoredSourceTurnIndices)
    (.malformed "restored turn indices must be nonempty, unique, and sorted")

def NoteGenerationRequest.validate (r : NoteGenerationRequest) :
    Except OperationContractError Unit := do
  refuseIf (r.requestedAtEpochSeconds = 0) (.malformed "request time must be positive")
  validateDigest r.sourceTranscriptSha256
  validateSpeakerLabelOverrides r.speakerLabelOverrides
  validateVocabularyReplacements r.vocabularyReplacements
  validatePreMeetingContext r.preMeetingContext
  match r.schema, r.priorNote with
  | .v1, some _ => .error (.malformed "request/1 cannot replace a prior note")
  | _, some note =>
    validateNoteOf note r.sourceTranscriptSha256 "prior note binds another transcript"
  | _, none => .ok ()

def NoteGenerationResult.validate (r : NoteGenerationResult) :
    Except OperationContractError Unit := do
  validateDigest r.sourceTranscriptSha256
  match r.status, r.note, r.failureCode with
  | .accepted, some note, none =>
    validateNoteOf note r.sourceTranscriptSha256 "accepted note binds another transcript"
  | .rejected, none, some _ => .ok ()
  | _, _, _ => .error (.malformed "note result status, note, and failure code disagree")

def NoteCreateWorkerFailure.validate (f : NoteCreateWorkerFailure) :
    Except OperationContractError NoteFailureCode := do
  refuseIf (¬ f.recoverable ∨ f.artifactDigests ≠ ∅)
    (.malformed "rejected note worker result must be recoverable and artifact-free")
  match f.code with
  | .noteRejected => return .noteRejected

/-- The combinations of kind, outcome, lifecycle and note that a commit may
record. -/
def commitCoherent : ProductOperationKind → ProductOperationOutcome → MeetingLifecycle → Bool →
    Bool
  | .restoreWithheldTurn, .transcriptRestored, .transcriptReady, false => true
  | .generateNote, .noteAccepted, .ready, true => true
  | .generateNote, .noteRejected, .summaryFailed, false => true
  | .generateNote, .noteRejected, .ready, true => true
  | _, _, _, _ => false

def MeetingOperationCommit.validate (c : MeetingOperationCommit) :
    Except OperationContractError Unit := do
  validateDigest c.requestSha256
  validateDigest c.resultSha256
  validateDigest c.committedMeetingSha256
  validateDigest c.currentTranscriptSha256
  refuseIf (c.committedAtEpochSeconds = 0) (.malformed "commit time must be positive")
  checkSome c.currentNote fun note =>
    validateNoteOf note c.currentTranscriptSha256 "committed note binds another transcript"
  refuseIf (¬ commitCoherent c.kind c.outcome c.lifecycle c.currentNote.isSome)
    (.malformed "commit outcome, lifecycle, and note pointer disagree")

/-! ## Worker digests -/

/-- `validate_exact_digests`: the expected roles and no other, each a digest.
Once the roles are known to be the expected ones, checking the values of the
expected roles is checking all values. -/
def validateExactDigests (digests : Digests) (expected : List String) :
    Except OperationContractError Unit := do
  refuseIf (digests.keys.card ≠ expected.length ∨ ¬ ∀ role ∈ expected, role ∈ digests.keys)
    (.malformed "worker digest result has the wrong keys")
  expected.forM fun role => validateDigest (digests.at role)

def validateRestoreWorkerDigests (digests : Digests) (sourceTranscriptSha256 : String) :
    Except OperationContractError Unit := do
  validateExactDigests digests ["base-transcript", "parent-transcript", "transcript"]
  refuseIf (digests.at "parent-transcript" ≠ sourceTranscriptSha256)
    (.malformed "worker restoration parent differs from request source")

def validateNoteWorkerDigests (digests : Digests) (sourceTranscriptSha256 : String) :
    Except OperationContractError Unit := do
  validateExactDigests digests ["note", "note-markdown", "transcript"]
  refuseIf (digests.at "transcript" ≠ sourceTranscriptSha256)
    (.malformed "worker note result differs from request source")

/-! ## Receipts that belong together -/

section Joins

variable (B : Type) [Platform B]

/-- `digest_pretty`: the digest of a record's canonical text. -/
def digestPretty {α : Type} [Serde α] (a : α) : String := Platform.sha256 (toVecPretty a : B)

/-- The turns a successor view must restore, from its parent's view. -/
def expectedRestoredIndices (request : TranscriptRestorationRequest)
    (parentView : Option TranscriptView) (view : TranscriptView) :
    Except OperationContractError (List UInt32) :=
  match parentView with
  | some parent => do
    parent.validate
    refuseIf (parent.meetingId ≠ request.meetingId ∨
        parent.baseTranscriptSha256 ≠ view.baseTranscriptSha256 ∨
        digestPretty B parent ≠ request.sourceTranscriptSha256 ∨
        request.sourceTurnIndex ∈ parent.restoredSourceTurnIndices)
      (.malformed "parent transcript view cannot accept this restoration")
    return parent.restoredSourceTurnIndices
  | none => do
    refuseIf (view.baseTranscriptSha256 ≠ request.sourceTranscriptSha256)
      (.malformed "first restoration does not start from the base transcript")
    return []

def validateRestorationJoin (request : TranscriptRestorationRequest)
    (parentView : Option TranscriptView) (view : TranscriptView)
    (result : TranscriptRestorationResult) : Except OperationContractError Unit := do
  request.validate
  view.validate
  result.validate
  refuseIf (request.operationId ≠ result.operationId ∨ request.meetingId ≠ view.meetingId ∨
      request.meetingId ≠ result.meetingId ∨
      request.sourceTranscriptSha256 ≠ result.sourceTranscriptSha256 ∨
      request.sourceTranscriptSha256 ≠ view.parentTranscriptSha256 ∨
      view.baseTranscriptSha256 ≠ result.baseTranscriptSha256 ∨
      view.parentTranscriptSha256 ≠ result.parentTranscriptSha256 ∨
      view.restoredSourceTurnIndices ≠ result.restoredSourceTurnIndices ∨
      result.view.sha256 ≠ digestPretty B view)
    (.malformed "restoration request, view, and result disagree")
  let restored ← expectedRestoredIndices B request parentView view
  refuseIf ((restored ++ [request.sourceTurnIndex]).insertionSort (· ≤ ·) ≠
      view.restoredSourceTurnIndices)
    (.malformed "successor transcript view must add exactly the requested turn")

def validateRestoreWorkerJoin (digests : Digests) (request : TranscriptRestorationRequest)
    (parentView : Option TranscriptView) (view : TranscriptView)
    (result : TranscriptRestorationResult) : Except OperationContractError Unit := do
  validateRestoreWorkerDigests digests request.sourceTranscriptSha256
  validateRestorationJoin B request parentView view result
  refuseIf (digests.at "base-transcript" ≠ view.baseTranscriptSha256 ∨
      digests.at "parent-transcript" ≠ view.parentTranscriptSha256 ∨
      digests.at "transcript" ≠ result.view.sha256)
    (.malformed "worker restoration digests disagree with authoritative artifacts")

def validateNoteWorkerJoin (digests : Digests) (request : NoteGenerationRequest)
    (result : NoteGenerationResult) : Except OperationContractError Unit := do
  validateNoteWorkerDigests digests request.sourceTranscriptSha256
  request.validate
  result.validate
  let note ← orRefuse result.note
    (.malformed "accepted note worker digests lack a note result")
  refuseIf (result.status ≠ .accepted ∨ request.operationId ≠ result.operationId ∨
      request.meetingId ≠ result.meetingId ∨
      request.sourceTranscriptSha256 ≠ result.sourceTranscriptSha256 ∨
      digests.at "note" ≠ note.json.sha256 ∨
      digests.at "note-markdown" ≠ note.markdown.sha256 ∨
      digests.at "transcript" ≠ note.sourceTranscriptSha256)
    (.malformed "worker note digests disagree with authoritative artifacts")

def validateNoteWorkerFailureJoin (failure : NoteCreateWorkerFailure)
    (request : NoteGenerationRequest) (result : NoteGenerationResult) :
    Except OperationContractError Unit := do
  request.validate
  result.validate
  let mappedFailure ← failure.validate
  refuseIf (result.status ≠ .rejected ∨ result.note.isSome ∨
      result.failureCode ≠ some mappedFailure ∨ request.operationId ≠ result.operationId ∨
      request.meetingId ≠ result.meetingId ∨
      request.sourceTranscriptSha256 ≠ result.sourceTranscriptSha256)
    (.malformed "worker note rejection disagrees with persisted result")

variable {B} [DecidableEq B]

/-- `validate_commit_meeting`: the commit names exactly these meeting bytes. -/
def validateCommitMeeting (commit : MeetingOperationCommit) (meeting : MeetingRecord)
    (meetingBytes : B) : Except OperationContractError Unit := do
  commit.validate
  (meeting.validate B commit.meetingId.text).mapError fun _ =>
    .malformed "committed meeting is invalid"
  let parsed ← orRefuse (fromSlice meetingBytes : Option MeetingRecord)
    (.malformed "committed meeting bytes are invalid")
  let currentTranscript ← orRefuse meeting.artifacts.currentTranscript
    (.malformed "committed meeting lacks a transcript")
  refuseIf (parsed ≠ meeting ∨ meetingBytes ≠ toVecPretty meeting ∨
      Platform.sha256 meetingBytes ≠ commit.committedMeetingSha256 ∨
      meeting.meetingId ≠ commit.meetingId.text ∨ meeting.lifecycle ≠ commit.lifecycle ∨
      currentTranscript.sha256 ≠ commit.currentTranscriptSha256 ∨
      meeting.artifacts.currentNote ≠ commit.currentNote ∨
      meeting.pendingStorageOperation.isSome)
    (.malformed "commit receipt disagrees with exact meeting bytes")

def validateRestorationReceipts (request : TranscriptRestorationRequest)
    (result : TranscriptRestorationResult) (commit : MeetingOperationCommit)
    (meeting : MeetingRecord) (meetingBytes : B) : Except OperationContractError Unit := do
  request.validate
  result.validate
  commit.validate
  refuseIf (request.operationId ≠ result.operationId ∨ request.operationId ≠ commit.operationId ∨
      request.meetingId ≠ result.meetingId ∨ request.meetingId ≠ commit.meetingId ∨
      digestPretty B request ≠ commit.requestSha256 ∨
      digestPretty B result ≠ commit.resultSha256 ∨
      commit.kind ≠ .restoreWithheldTurn ∨ commit.outcome ≠ .transcriptRestored ∨
      commit.currentTranscriptSha256 ≠ result.view.sha256)
    (.malformed "restoration receipts do not form one operation")
  validateCommitMeeting commit meeting meetingBytes

end Joins

/-- The outcome a commit records for a note result. -/
def NoteGenerationStatus.outcome : NoteGenerationStatus → ProductOperationOutcome
  | .accepted => .noteAccepted
  | .rejected => .noteRejected

/-- The note that is current once the result of a request is published. -/
def publishedNote (request : NoteGenerationRequest) (result : NoteGenerationResult) :
    Option NoteRevisionRef :=
  match result.status with
  | .accepted => result.note
  | .rejected => request.priorNote

def validateNoteReceipts {B : Type} [Platform B] [DecidableEq B] (request : NoteGenerationRequest)
    (result : NoteGenerationResult) (commit : MeetingOperationCommit) (meeting : MeetingRecord)
    (meetingBytes : B) : Except OperationContractError Unit := do
  request.validate
  result.validate
  commit.validate
  refuseIf (request.operationId ≠ result.operationId ∨ request.operationId ≠ commit.operationId ∨
      request.meetingId ≠ result.meetingId ∨ request.meetingId ≠ commit.meetingId ∨
      request.sourceTranscriptSha256 ≠ result.sourceTranscriptSha256 ∨
      request.sourceTranscriptSha256 ≠ commit.currentTranscriptSha256 ∨
      digestPretty B request ≠ commit.requestSha256 ∨
      digestPretty B result ≠ commit.resultSha256 ∨ commit.kind ≠ .generateNote ∨
      commit.outcome ≠ result.status.outcome ∨
      commit.currentNote ≠ publishedNote request result)
    (.malformed "note receipts do not form one operation")
  validateCommitMeeting commit meeting meetingBytes

/-! ## What a recovery may conclude -/

/-- Whether the meeting still stands where the request found it. -/
def sourceStateMatches (sourceTranscriptSha256 : String) (priorNote : Option NoteRevisionRef)
    (lifecycle : MeetingLifecycle) (currentTranscriptSha256 : String)
    (currentNote : Option NoteRevisionRef) : Bool :=
  currentTranscriptSha256 == sourceTranscriptSha256 &&
    match priorNote, currentNote, lifecycle with
    | some prior, some current, .ready => prior == current
    | none, none, .transcriptReady => true
    | none, none, .summaryFailed => true
    | _, _, _ => false

def classifyRestorationRecovery (request : TranscriptRestorationRequest)
    (result : Option TranscriptRestorationResult) (lifecycle : MeetingLifecycle)
    (currentTranscriptSha256 : String) (currentNote : Option NoteRevisionRef) :
    Except OperationContractError IncompleteOperationRecovery := do
  request.validate
  validateDigest currentTranscriptSha256
  let sourceMatches := sourceStateMatches request.sourceTranscriptSha256 request.priorNote
    lifecycle currentTranscriptSha256 currentNote
  match result with
  | none =>
    if sourceMatches then return .retryRequest
    else .error (.malformed "restoration request no longer matches meeting state")
  | some result =>
    result.validate
    refuseIf (request.operationId ≠ result.operationId ∨ request.meetingId ≠ result.meetingId ∨
        request.sourceTranscriptSha256 ≠ result.sourceTranscriptSha256)
      (.malformed "restoration request and result disagree")
    if sourceMatches then return .applyValidatedResult
    else if currentTranscriptSha256 = result.view.sha256 ∧ lifecycle = .transcriptReady ∧
        currentNote = none then return .writeMissingCommit
    else .error (.malformed "restoration recovery state is ambiguous")

/-- Whether the meeting already stands where the result would put it, the
transcript aside. -/
def resultIsApplied (request : NoteGenerationRequest) (result : NoteGenerationResult)
    (lifecycle : MeetingLifecycle) (currentNote : Option NoteRevisionRef) : Bool :=
  match result.status with
  | .accepted => decide (lifecycle = .ready) && decide (currentNote = result.note)
  | .rejected =>
    match request.priorNote with
    | some prior => decide (lifecycle = .ready) && decide (currentNote = some prior)
    | none => decide (lifecycle = .summaryFailed) && decide (currentNote = none)

def classifyNoteRecovery (request : NoteGenerationRequest)
    (result : Option NoteGenerationResult) (lifecycle : MeetingLifecycle)
    (currentTranscriptSha256 : String) (currentNote : Option NoteRevisionRef) :
    Except OperationContractError IncompleteOperationRecovery := do
  request.validate
  validateDigest currentTranscriptSha256
  let sourceMatches := sourceStateMatches request.sourceTranscriptSha256 request.priorNote
    lifecycle currentTranscriptSha256 currentNote
  match result with
  | none =>
    if sourceMatches then return .retryRequest
    else .error (.malformed "note request no longer matches meeting state")
  | some result =>
    result.validate
    refuseIf (request.operationId ≠ result.operationId ∨ request.meetingId ≠ result.meetingId ∨
        request.sourceTranscriptSha256 ≠ result.sourceTranscriptSha256)
      (.malformed "note request and result disagree")
    if currentTranscriptSha256 = request.sourceTranscriptSha256 ∧
        resultIsApplied request result lifecycle currentNote then return .writeMissingCommit
    else if sourceMatches then return .applyValidatedResult
    else .error (.malformed "note recovery state is ambiguous")

end YawnApp.SessionCore
