import YawnApp.SessionCore.Recovery

set_option autoImplicit false

/-!
# Transcript retry (`transcript_retry.rs`)

A retry puts a second transcript next to the current one and asks the operator.
`create_candidate` stores the transcript and a receipt, below
`transcript-retry/<operation>/`, that says which transcript and which audio it
was made from; `keep_current` and `promote_candidate` record the decision in the
receipt, the second after it has moved the meeting's pointer.  The receipt and
the pointer are two files, so a crash can leave the pointer moved and the
decision not yet written.
-/

namespace YawnApp.SessionCore

open YawnApp.Foundation

/-! ## The receipt -/

inductive TranscriptRetryState where
  | candidateAvailableForComparison
  | currentKept
  | candidatePromoted
deriving DecidableEq, Repr

/-- `TranscriptRetryOutcome`, which has a value for each state. -/
abbrev TranscriptRetryOutcome : Type := TranscriptRetryState

inductive TranscriptRetryCandidateSchema where
  | v1
deriving DecidableEq, Repr

structure TranscriptRetrySourceBinding where
  sourceTranscriptSha256 : String
  captureSessionSha256 : String
  microphoneAudioSha256 : String
  systemAudioSha256 : String
  candidateTranscriptSha256 : String
deriving DecidableEq, Repr

structure TranscriptRetryCandidate where
  schema : TranscriptRetryCandidateSchema
  operationId : Uuid
  meetingId : String
  state : TranscriptRetryState
  sourceTranscriptSha256 : String
  captureSessionSha256 : String
  microphoneAudioSha256 : String
  systemAudioSha256 : String
  candidateTranscript : ArtifactRef
deriving DecidableEq

inductive TranscriptRetryError where
  | coordination (e : MeetingCoordinationError)
  | meeting (e : MeetingError)
  | io (kind : IoError)
  | noSuchMeeting
  | noCurrentTranscript
  | audioReleased
  | candidateChanged
  | crossMeetingCandidate
  | malformedOperation
  | conflictingOperation
  | staleSource
  | bindingMismatch
  | candidateDigestMismatch
  | ineligibleLifecycle
  | pendingStorageOperation
  | pendingCandidateExists
  | discoveryBoundExceeded
deriving DecidableEq, Repr

instance : Serde TranscriptRetryState :=
  Serde.ofNames
    (fun
      | .candidateAvailableForComparison => "candidate-available-for-comparison"
      | .currentKept => "current-kept"
      | .candidatePromoted => "candidate-promoted")
    [.candidateAvailableForComparison, .currentKept, .candidatePromoted]
    (by intro a; cases a <;> decide)

instance : Serde TranscriptRetryCandidateSchema :=
  Serde.ofNames (fun | .v1 => "transcript-retry-candidate/1") [.v1] (by intro a; cases a; rfl)

instance : Serde TranscriptRetryCandidate where
  toValue c := .object
    [("schema", Serde.toValue c.schema), ("operation_id", Serde.toValue c.operationId),
      ("meeting_id", Serde.toValue c.meetingId), ("state", Serde.toValue c.state),
      ("source_transcript_sha256", Serde.toValue c.sourceTranscriptSha256),
      ("capture_session_sha256", Serde.toValue c.captureSessionSha256),
      ("microphone_audio_sha256", Serde.toValue c.microphoneAudioSha256),
      ("system_audio_sha256", Serde.toValue c.systemAudioSha256),
      ("candidate_transcript", Serde.toValue c.candidateTranscript)]
  fromValue v := do
    let fs ← closedFields ["schema", "operation_id", "meeting_id", "state",
      "source_transcript_sha256", "capture_session_sha256", "microphone_audio_sha256",
      "system_audio_sha256", "candidate_transcript"] v
    return {
      schema := ← requiredField fs "schema"
      operationId := ← requiredField fs "operation_id"
      meetingId := ← requiredField fs "meeting_id"
      state := ← requiredField fs "state"
      sourceTranscriptSha256 := ← requiredField fs "source_transcript_sha256"
      captureSessionSha256 := ← requiredField fs "capture_session_sha256"
      microphoneAudioSha256 := ← requiredField fs "microphone_audio_sha256"
      systemAudioSha256 := ← requiredField fs "system_audio_sha256"
      candidateTranscript := ← requiredField fs "candidate_transcript" }
  fromValue_toValue c := by
    refine (closedFields_bind rfl).trans ?_
    repeat refine (requiredField_bind rfl).trans ?_
    rfl
  plain_toValue c := Value.plain_object (by simp [Value.plainFields]) rfl
  toValue_ne_null c := by simp

namespace TranscriptRetry

/-! ## Places -/

/-- `MAX_TRANSCRIPT_BYTES`. -/
def maxTranscriptBytes : Nat := 16 * 1024 * 1024

/-- `MAX_RETRY_DISCOVERY_ENTRIES`. -/
def maxRetryDiscoveryEntries : Nat := 256

def retryDir : MeetingPath := .entry ["transcript-retry"]

def operationDir (id : Uuid) : MeetingPath := .entry ["transcript-retry", id.text]

def receiptComponents (id : Uuid) : List String := ["transcript-retry", id.text, "receipt.json"]

def receiptPath (id : Uuid) : MeetingPath := .entry (receiptComponents id)

/-! ## Shapes and bindings -/

/-- `validate_candidate_shape`. -/
def validateCandidateShape (candidate : TranscriptRetryCandidate) :
    Except TranscriptRetryError Unit :=
  refuseIf (¬ validOpaqueId candidate.meetingId ∨ ¬ validSha256 candidate.sourceTranscriptSha256 ∨
    ¬ validSha256 candidate.captureSessionSha256 ∨ ¬ validSha256 candidate.microphoneAudioSha256 ∨
    ¬ validSha256 candidate.systemAudioSha256 ∨
    candidate.candidateTranscript.relativePath ≠
      revisionPath candidate.candidateTranscript.sha256 ∨
    ¬ validSha256 candidate.candidateTranscript.sha256) .malformedOperation

/-- `validate_binding_shape`. -/
def validateBindingShape (binding : TranscriptRetrySourceBinding) :
    Except TranscriptRetryError Unit :=
  refuseIf (¬ validSha256 binding.sourceTranscriptSha256 ∨
    ¬ validSha256 binding.captureSessionSha256 ∨ ¬ validSha256 binding.microphoneAudioSha256 ∨
    ¬ validSha256 binding.systemAudioSha256 ∨ ¬ validSha256 binding.candidateTranscriptSha256)
    .bindingMismatch

/-- `binding_matches_meeting`. -/
def bindingMatchesMeeting (binding : TranscriptRetrySourceBinding) (meeting : MeetingRecord) : Prop :=
  meeting.artifacts.currentTranscript.map ArtifactRef.sha256 = some binding.sourceTranscriptSha256 ∧
  meeting.artifacts.captureSession.map ArtifactRef.sha256 = some binding.captureSessionSha256 ∧
  meeting.artifacts.microphoneAudio.map ArtifactRef.sha256 = some binding.microphoneAudioSha256 ∧
  meeting.artifacts.systemAudio.map ArtifactRef.sha256 = some binding.systemAudioSha256

instance (binding : TranscriptRetrySourceBinding) (meeting : MeetingRecord) :
    Decidable (bindingMatchesMeeting binding meeting) := by
  unfold bindingMatchesMeeting
  infer_instance

/-- The five digests of a candidate. -/
def bindingOf (candidate : TranscriptRetryCandidate) :
    TranscriptRetrySourceBinding where
  sourceTranscriptSha256 := candidate.sourceTranscriptSha256
  captureSessionSha256 := candidate.captureSessionSha256
  microphoneAudioSha256 := candidate.microphoneAudioSha256
  systemAudioSha256 := candidate.systemAudioSha256
  candidateTranscriptSha256 := candidate.candidateTranscript.sha256

/-- The candidate that `create_candidate` stores. -/
def newCandidate (name : String) (id : Uuid) (binding : TranscriptRetrySourceBinding) :
    TranscriptRetryCandidate where
  schema := .v1
  operationId := id
  meetingId := name
  state := .candidateAvailableForComparison
  sourceTranscriptSha256 := binding.sourceTranscriptSha256
  captureSessionSha256 := binding.captureSessionSha256
  microphoneAudioSha256 := binding.microphoneAudioSha256
  systemAudioSha256 := binding.systemAudioSha256
  candidateTranscript :=
    { relativePath := revisionPath binding.candidateTranscriptSha256
      sha256 := binding.candidateTranscriptSha256 }

/-! ## Reading -/

section Reading

variable {B : Type} [Platform B] {meeting : MeetingRecord} {name : String}

/-- `load_source` in the meeting directory `name`. -/
def loadSource (name : String) (m : MeetingDirectory B) : Except TranscriptRetryError MeetingRecord := do
  (requirePrivateDirectory m.tree (.entry [])).mapError .meeting
  let meeting ← (loadMeeting m.reader name).mapError .meeting
  refuseIf (meeting.meetingId ≠ name) .crossMeetingCandidate
  refuseIf (meeting.retention.state ≠ .retained) .audioReleased
  refuseIf (meeting.lifecycle ∉ [MeetingLifecycle.transcriptReady, .summaryFailed, .ready])
    .ineligibleLifecycle
  refuseIf meeting.pendingStorageOperation.isSome .pendingStorageOperation
  (verifyRecordArtifacts m.reader meeting).mapError .meeting
  return meeting

/-- A directory that is there is private. -/
def requirePrivateIfPresent (tree : ArtifactTree B) (p : MeetingPath) :
    Except TranscriptRetryError Unit :=
  if (tree.node p).isSome then (requirePrivateDirectory tree p).mapError .meeting else .ok ()

/-- The checks of `operation_dir`. -/
def checkOperationDir (id : Uuid) (tree : ArtifactTree B) : Except TranscriptRetryError Unit := do
  requirePrivateIfPresent tree retryDir
  requirePrivateIfPresent tree (operationDir id)

/-- `load_receipt`. -/
def loadReceipt (tree : ArtifactTree B) (id : Uuid) :
    Except TranscriptRetryError TranscriptRetryCandidate := do
  (requirePrivateDirectory tree (operationDir id)).mapError fun _ => .malformedOperation
  let bytes ← (readPrivateBytes tree (receiptPath id) maxReceiptBytes).mapError
    fun _ => .malformedOperation
  let candidate ← orRefuse (fromSlice bytes : Option TranscriptRetryCandidate) .malformedOperation
  validateCandidateShape candidate
  refuseIf (candidate.operationId ≠ id) .malformedOperation
  return candidate

/-- `validate_receipt`. -/
def validateReceipt (name : String) (meeting : MeetingRecord) (candidate : TranscriptRetryCandidate)
    (m : MeetingDirectory B) : Except TranscriptRetryError Unit := do
  validateCandidateShape candidate
  refuseIf (candidate.meetingId ≠ name ∨ candidate.meetingId ≠ meeting.meetingId)
    .crossMeetingCandidate
  let current ← orRefuse meeting.artifacts.currentTranscript .noCurrentTranscript
  let capture ← orRefuse meeting.artifacts.captureSession .staleSource
  let microphone ← orRefuse meeting.artifacts.microphoneAudio .staleSource
  let system ← orRefuse meeting.artifacts.systemAudio .staleSource
  if candidate.state = .candidatePromoted then
    refuseIf (current ≠ candidate.candidateTranscript) .staleSource
  else if current = candidate.candidateTranscript then
    -- the pointer may have been published before a crash
    pure ()
  else
    refuseIf (current.sha256 ≠ candidate.sourceTranscriptSha256 ∨
      capture.sha256 ≠ candidate.captureSessionSha256 ∨
      microphone.sha256 ≠ candidate.microphoneAudioSha256 ∨
      system.sha256 ≠ candidate.systemAudioSha256) .staleSource
  (verifyArtifactRef m.reader candidate.candidateTranscript).mapError fun _ => .candidateChanged

/-- The loop of `discover_pending_candidate_locked` over the names in
`transcript-retry/`.  The source takes other spellings of an identifier as well,
which no call writes. -/
def discoverEntries (name : String) (meeting : MeetingRecord) (m : MeetingDirectory B) :
    List String → Nat → Option TranscriptRetryCandidate →
      Except TranscriptRetryError (Option TranscriptRetryCandidate)
  | [], _, pending => .ok pending
  | entry :: rest, index, pending => do
    refuseIf (index = maxRetryDiscoveryEntries) .discoveryBoundExceeded
    let id ← orRefuse (if h : canonicalUuid entry = true then some ⟨entry, h⟩ else none)
      .malformedOperation
    let candidate ← loadReceipt m.tree id
    refuseIf (candidate.meetingId ≠ name ∨ candidate.meetingId ≠ meeting.meetingId)
      .crossMeetingCandidate
    if candidate.state = .candidateAvailableForComparison then do
      validateReceipt name meeting candidate m
      refuseIf pending.isSome .pendingCandidateExists
      discoverEntries name meeting m rest (index + 1) (some candidate)
    else do
      (verifyArtifactRef m.reader candidate.candidateTranscript).mapError fun _ => .candidateChanged
      discoverEntries name meeting m rest (index + 1) pending

/-- `discover_pending_candidate_locked`. -/
def discoverPendingCandidate (name : String) (meeting : MeetingRecord) (m : MeetingDirectory B) :
    Except TranscriptRetryError (Option TranscriptRetryCandidate) :=
  if (m.tree.node retryDir).isNone then .ok none
  else do
    (requirePrivateDirectory m.tree retryDir).mapError fun _ => .malformedOperation
    let names := (m.tree.readDir retryDir).map fun found => found.1.parts.getLastD ""
    discoverEntries name meeting m names 0 none

/-- What `keep_current` and `promote_candidate` begin with. -/
def loadDecision (name : String) (id : Uuid) (m : MeetingDirectory B) :
    Except TranscriptRetryError (MeetingRecord × TranscriptRetryCandidate) := do
  let meeting ← loadSource name m
  checkOperationDir id m.tree
  let candidate ← loadReceipt m.tree id
  validateReceipt name meeting candidate m
  return (meeting, candidate)

/-! ### What the readers checked -/

/-- A meeting that `load_source` lets pass. -/
structure Eligible (name : String) (m : MeetingDirectory B) (meeting : MeetingRecord) : Prop where
  isPrivate : requirePrivateDirectory m.tree (.entry []) = .ok ()
  loaded : loadMeeting m.reader name = .ok meeting
  identity : meeting.meetingId = name
  retained : meeting.retention.state = .retained
  lifecycle : MeetingRecord.HasTranscript meeting.lifecycle
  pending : meeting.pendingStorageOperation = none
  verified : verifyRecordArtifacts m.reader meeting = .ok ()

variable {m : MeetingDirectory B}

theorem loadSource_eq_ok : loadSource name m = .ok meeting ↔ Eligible name m meeting := by
  have hlifecycle : ¬ meeting.lifecycle ∉ [MeetingLifecycle.transcriptReady, .summaryFailed, .ready] ↔
      MeetingRecord.HasTranscript meeting.lifecycle := by
    unfold MeetingRecord.HasTranscript
    simp only [not_not, List.mem_cons, List.not_mem_nil, or_false]
    tauto
  unfold loadSource
  simp only [bind_eq_ok, mapError_eq_ok, refuseIf_eq_ok, pure, Except.pure, Except.ok.injEq]
  constructor
  · rintro ⟨_, hprivate, found, hloaded, _, hname, _, hretained, _, hcases, _, hpending, _, hverified,
      heq⟩
    subst heq
    exact ⟨hprivate, hloaded, not_not.mp hname, not_not.mp hretained, hlifecycle.mp hcases,
      Option.not_isSome_iff_eq_none.mp hpending, hverified⟩
  · intro h
    exact ⟨(), h.isPrivate, meeting, h.loaded, (), not_not_intro h.identity, (),
      not_not_intro h.retained, (), hlifecycle.mpr h.lifecycle, (),
      Option.not_isSome_iff_eq_none.mpr h.pending, (), h.verified, rfl⟩

theorem Eligible.valid (h : Eligible name m meeting) : meeting.Valid B name :=
  (MeetingRecord.validate_eq_ok B _ _).mp (loadMeeting_eq_ok h.loaded)

/-- A receipt that `load_receipt` lets pass. -/
theorem loadReceipt_eq_ok {tree : ArtifactTree B} {id : Uuid} {candidate : TranscriptRetryCandidate} :
    loadReceipt tree id = .ok candidate ↔
      requirePrivateDirectory tree (operationDir id) = .ok () ∧
        (∃ bytes, readPrivateBytes tree (receiptPath id) maxReceiptBytes = .ok bytes ∧
          fromSlice bytes = some candidate) ∧
        validateCandidateShape candidate = .ok () ∧ candidate.operationId = id := by
  unfold loadReceipt
  simp only [bind_eq_ok, mapError_eq_ok, orRefuse_eq_ok, refuseIf_eq_ok, not_not, pure, Except.pure,
    Except.ok.injEq]
  constructor
  · rintro ⟨_, hprivate, bytes, hbytes, found, hfound, _, hshape, _, hid, rfl⟩
    exact ⟨hprivate, ⟨bytes, hbytes, hfound⟩, hshape, hid⟩
  · rintro ⟨hprivate, ⟨bytes, hbytes, hfound⟩, hshape, hid⟩
    exact ⟨(), hprivate, bytes, hbytes, candidate, hfound, (), hshape, (), hid, rfl⟩

theorem loadDecision_eq_ok {id : Uuid} {candidate : TranscriptRetryCandidate} :
    loadDecision name id m = .ok (meeting, candidate) ↔
      Eligible name m meeting ∧ checkOperationDir id m.tree = .ok () ∧
        loadReceipt m.tree id = .ok candidate ∧ validateReceipt name meeting candidate m = .ok () := by
  unfold loadDecision
  simp only [bind_eq_ok, loadSource_eq_ok, pure, Except.pure, Except.ok.injEq, Prod.mk.injEq]
  constructor
  · rintro ⟨found, hmeeting, _, hdir, found', hreceipt, _, hvalid, rfl, rfl⟩
    exact ⟨hmeeting, hdir, hreceipt, hvalid⟩
  · rintro ⟨hmeeting, hdir, hreceipt, hvalid⟩
    exact ⟨meeting, hmeeting, (), hdir, candidate, hreceipt, (), hvalid, rfl, rfl⟩

end Reading

/-- The transcript of a well-formed candidate has the name of its digest. -/
theorem validateDigestNamed_of_shape {candidate : TranscriptRetryCandidate}
    (h : validateCandidateShape candidate = .ok ()) :
    candidate.candidateTranscript.validateDigestNamed "transcript" "json" = .ok () := by
  unfold validateCandidateShape at h
  simp only [refuseIf_eq_ok, not_or, not_not] at h
  obtain ⟨-, -, -, -, -, hpath, hdigest⟩ := h
  unfold ArtifactRef.validateDigestNamed validateRef validateSha256
  simp only [check_bind_eq_ok, refuseIf_eq_ok, not_not]
  exact ⟨hdigest, hpath.trans (revisionPath_eq _), hdigest⟩

/-! ## Programs -/

section Programs

variable {B : Type} [Platform B] [DecidableEq B]

/-- The names of the temporary files of a call, drawn afresh. -/
structure Choices where
  candidate : Uuid
  receipt : Uuid

/-- `write_receipt`. -/
def writeReceipt (nonce : Uuid) (candidate : TranscriptRetryCandidate) :
    Durable (ArtifactTree B) TranscriptRetryError Unit :=
  Durable.mapError .io (durableReplace (receiptPath candidate.operationId)
    (.temporary (receiptComponents candidate.operationId) nonce) (toVecPretty candidate))

/-- The part of `create_candidate` that stores the transcript. -/
def storeCandidate (nonce : Uuid) (bytes : B) (transcript : ArtifactRef) :
    Durable (MeetingDirectory B) TranscriptRetryError Unit := do
  MeetingDirectory.inTree (Durable.mapError .io (createPrivateDir (.entry ["transcript"])))
  let path := components transcript.relativePath
  if ← Durable.inspect fun m => .ok (m.tree.node (.entry path)).isSome then do
    Durable.inspect fun m => (verifyArtifactRef m.reader transcript).mapError fun _ => .candidateChanged
    let existing ← Durable.inspect fun m =>
      (readPrivateBytes m.tree (.entry path) maxTranscriptBytes).mapError .meeting
    Durable.lift (refuseIf (existing ≠ bytes) .candidateChanged)
  else
    MeetingDirectory.inTree (Durable.mapError .io
      (durableCreateNew (.entry path) (.temporary path nonce) bytes))

/-- The part of `create_candidate` that stores the receipt. -/
def storeReceipt (nonce : Uuid) (candidate : TranscriptRetryCandidate) :
    Durable (ArtifactTree B) TranscriptRetryError Unit := do
  Durable.mapError .io (createPrivateDir retryDir)
  Durable.mapError .io (createPrivateDir (operationDir candidate.operationId))
  Durable.mapError .io (durableCreateNew (receiptPath candidate.operationId)
    (.temporary (receiptComponents candidate.operationId) nonce) (toVecPretty candidate))

/-- `create_candidate` of an operation that has a directory already. -/
def existingCandidate (name : String) (id : Uuid) (binding : TranscriptRetrySourceBinding)
    (meeting : MeetingRecord) (m : MeetingDirectory B) :
    Except TranscriptRetryError TranscriptRetryOutcome := do
  (requirePrivateDirectory m.tree (operationDir id)).mapError .meeting
  let candidate ← loadReceipt m.tree id
  validateReceipt name meeting candidate m
  refuseIf (bindingOf candidate ≠ binding) .conflictingOperation
  (verifyArtifactRef m.reader candidate.candidateTranscript).mapError .meeting
  return candidate.state

/-- What `create_candidate` asks of a meeting before it stores a new candidate. -/
def admitCandidate (name : String) (id : Uuid) (binding : TranscriptRetrySourceBinding)
    (meeting : MeetingRecord) (m : MeetingDirectory B) : Except TranscriptRetryError Unit := do
  refuseIf meeting.artifacts.currentTranscript.isNone .noCurrentTranscript
  refuseIf (¬ meeting.artifacts.completeCapture) .staleSource
  refuseIf (¬ bindingMatchesMeeting binding meeting) .bindingMismatch
  let pending ← discoverPendingCandidate name meeting m
  refuseIf (pending.any fun candidate => candidate.operationId ≠ id) .pendingCandidateExists
  validateCandidateShape (newCandidate name id binding)

/-- `create_candidate` in the meeting directory. -/
def createCandidateIn (choices : Choices) (name : String) (id : Uuid) (bytes : B)
    (binding : TranscriptRetrySourceBinding) :
    Durable (MeetingDirectory B) TranscriptRetryError TranscriptRetryOutcome := do
  let meeting ← Durable.inspect (loadSource name)
  Durable.lift (refuseIf (ByteString.size bytes = 0 ∨ ByteString.size bytes > maxTranscriptBytes)
    .candidateChanged)
  Durable.lift (validateBindingShape binding)
  Durable.lift (refuseIf (binding.candidateTranscriptSha256 ≠ Platform.sha256 bytes)
    .candidateDigestMismatch)
  Durable.inspect fun m => checkOperationDir id m.tree
  if ← Durable.inspect fun m => .ok (m.tree.node (operationDir id)).isSome then
    Durable.inspect (existingCandidate name id binding meeting)
  else do
    Durable.inspect (admitCandidate name id binding meeting)
    storeCandidate choices.candidate bytes (newCandidate name id binding).candidateTranscript
    MeetingDirectory.inTree (storeReceipt choices.receipt (newCandidate name id binding))
    pure .candidateAvailableForComparison

/-- `keep_current` in the meeting directory. -/
def keepCurrentIn (nonce : Uuid) (name : String) (id : Uuid) :
    Durable (MeetingDirectory B) TranscriptRetryError TranscriptRetryOutcome := do
  let (meeting, candidate) ← Durable.inspect (loadDecision name id)
  if candidate.state = .candidateAvailableForComparison ∧
      meeting.artifacts.currentTranscript = some candidate.candidateTranscript then do
    MeetingDirectory.inTree (writeReceipt nonce { candidate with state := .candidatePromoted })
    pure .candidatePromoted
  else if candidate.state ≠ .candidateAvailableForComparison then pure candidate.state
  else do
    MeetingDirectory.inTree (writeReceipt nonce { candidate with state := .currentKept })
    pure .currentKept

/-- The record that `promote_candidate` publishes. -/
def promotedRecord (meeting : MeetingRecord) (candidate : TranscriptRetryCandidate) :
    MeetingRecord :=
  { meeting with
    lifecycle := .transcriptReady
    artifacts := { meeting.artifacts with
      currentTranscript := some candidate.candidateTranscript, currentNote := none } }

/-- `promote_candidate` of a candidate that is still to be decided. -/
def promoteAvailable (nonce : Uuid) (name : String) (meeting : MeetingRecord)
    (candidate : TranscriptRetryCandidate) :
    Durable (MeetingDirectory B) TranscriptRetryError TranscriptRetryOutcome := do
  -- after a crash the pointer may stand where the promotion puts it
  if meeting.artifacts.currentTranscript = some candidate.candidateTranscript then pure ()
  else do
    let current ← Durable.lift (orRefuse meeting.artifacts.currentTranscript .noCurrentTranscript)
    Durable.lift (refuseIf (current.sha256 ≠ candidate.sourceTranscriptSha256) .staleSource)
    Durable.mapError .meeting (Recovery.writeMeeting name (promotedRecord meeting candidate))
  MeetingDirectory.inTree (writeReceipt nonce { candidate with state := .candidatePromoted })
  pure .candidatePromoted

/-- `promote_candidate` in the meeting directory. -/
def promoteCandidateIn (nonce : Uuid) (name : String) (id : Uuid) :
    Durable (MeetingDirectory B) TranscriptRetryError TranscriptRetryOutcome := do
  let (meeting, candidate) ← Durable.inspect (loadDecision name id)
  match candidate.state with
  | .currentKept => pure .currentKept
  | .candidatePromoted => do
    Durable.lift (refuseIf (meeting.artifacts.currentTranscript ≠ some candidate.candidateTranscript)
      .malformedOperation)
    pure .candidatePromoted
  | .candidateAvailableForComparison => promoteAvailable nonce name meeting candidate

/-- `discover_pending_candidate` in the meeting directory. -/
def discoverIn (name : String) (m : MeetingDirectory B) :
    Except TranscriptRetryError (Option TranscriptRetryCandidate) :=
  if (m.tree.node retryDir).isNone then .ok none
  else do
    let meeting ← loadSource name m
    discoverPendingCandidate name meeting m

/-- A call in the directory of a meeting, under its lease. -/
def inMeetingDir {α : Type} (lease : Except MeetingCoordinationError Unit) (meetingId : String)
    (program : Durable (MeetingDirectory B) TranscriptRetryError α) :
    Durable (Meetings B) TranscriptRetryError α := do
  Durable.lift (lease.mapError .coordination)
  Durable.inspect fun meetings => refuseIf (meetings.entry meetingId).isNone .noSuchMeeting
  Directory.within meetingId program

end Programs

end TranscriptRetry

end YawnApp.SessionCore
