import YawnApp.SessionCore.MeetingDirectory

set_option autoImplicit false

/-!
# Audio retention (`retention.rs`, the deletion of one meeting's audio)

`audio-deletion/1` removes the recorded audio of a meeting and keeps the rest.
A receipt below `deletion/` lists the files by size and digest; the record says
that they are being removed; each file is renamed into `deletion/` and removed
there; the receipt and the record say that it is done.  A call that finds a
receipt goes on from where the receipt says the last one stopped.
-/

namespace YawnApp.SessionCore

open YawnApp.Foundation

/-! ## The receipt -/

inductive AudioDeletionSchema where
  | v1
deriving DecidableEq, Repr

inductive DeletionState where
  | deleting
  | staged
  | removed
deriving DecidableEq, Repr

structure DeletedArtifact where
  relativeName : String
  byteSize : UInt64
  sha256 : String
deriving DecidableEq, Repr

structure AudioDeletionReceipt where
  schema : AudioDeletionSchema
  captureSessionSha256 : String
  state : DeletionState
  artifacts : List DeletedArtifact
deriving DecidableEq, Repr

inductive MeetingRetentionResult where
  | notDue
  | audioReleased
  | recoveredRemoval
deriving DecidableEq, Repr

inductive RetentionError where
  | unexplainedAudioLoss
  | malformedReceipt
  | invalidAudio
  | meeting (e : MeetingError)
  | io (kind : IoError)
deriving DecidableEq, Repr

instance : Serde AudioDeletionSchema :=
  Serde.ofNames (fun | .v1 => "audio-deletion/1") [.v1] (by intro a; cases a; rfl)

instance : Serde DeletionState :=
  Serde.ofNames
    (fun
      | .deleting => "deleting"
      | .staged => "staged"
      | .removed => "removed")
    [.deleting, .staged, .removed] (by intro a; cases a <;> decide)

instance : Serde DeletedArtifact where
  toValue a := .object
    [("relative_name", Serde.toValue a.relativeName), ("byte_size", Serde.toValue a.byteSize),
      ("sha256", Serde.toValue a.sha256)]
  fromValue v := do
    let fs ← closedFields ["relative_name", "byte_size", "sha256"] v
    return {
      relativeName := ← requiredField fs "relative_name"
      byteSize := ← requiredField fs "byte_size"
      sha256 := ← requiredField fs "sha256" }
  fromValue_toValue a := by
    refine (closedFields_bind rfl).trans ?_
    repeat refine (requiredField_bind rfl).trans ?_
    rfl
  plain_toValue a := Value.plain_object (by simp [Value.plainFields]) rfl
  toValue_ne_null a := by simp

instance : Serde AudioDeletionReceipt where
  toValue r := .object
    [("schema", Serde.toValue r.schema),
      ("capture_session_sha256", Serde.toValue r.captureSessionSha256),
      ("state", Serde.toValue r.state), ("artifacts", Serde.toValue r.artifacts)]
  fromValue v := do
    let fs ← closedFields ["schema", "capture_session_sha256", "state", "artifacts"] v
    return {
      schema := ← requiredField fs "schema"
      captureSessionSha256 := ← requiredField fs "capture_session_sha256"
      state := ← requiredField fs "state"
      artifacts := ← requiredField fs "artifacts" }
  fromValue_toValue r := by
    refine (closedFields_bind rfl).trans ?_
    repeat refine (requiredField_bind rfl).trans ?_
    rfl
  plain_toValue r := Value.plain_object (by simp [Value.plainFields]) rfl
  toValue_ne_null r := by simp

/-! ## Places -/

/-- `AUDIO_ARTIFACT_PATHS`. -/
def audioArtifactPaths : List String :=
  [microphoneAudioPath, systemAudioPath, microphonePartialAudioPath, systemPartialAudioPath]

namespace Retention

/-- The directory below which the files are staged. -/
def deletionDir : MeetingPath := .entry ["deletion"]

/-- `"deletion/audio-deletion.json"`. -/
def receiptRelative : String := "deletion/audio-deletion.json"

def receiptComponents : List String := ["deletion", "audio-deletion.json"]

def receiptPath : MeetingPath := .entry receiptComponents

/-- The temporary file beside the receipt. -/
def receiptTemporary (nonce : Uuid) : MeetingPath := .temporary receiptComponents nonce

/-- `meeting_dir.join(relative)`. -/
def livePath (relativeName : String) : MeetingPath := .entry (components relativeName)

/-- `staged_path`. -/
def stagedPath (relativeName : String) : Except RetentionError MeetingPath := do
  refuseIf (relativeName ∉ audioArtifactPaths) .malformedReceipt
  return .entry ["deletion", fileName relativeName ++ ".staged"]

/-! ## Reading the tree -/

section Reading

variable {B : Type}

/-- `resolve_artifact`. -/
def resolveArtifact (tree : ArtifactTree B) (relativePath : String) :
    Except RetentionError MeetingPath := do
  refuseIf (¬ isSafeArtifactPath relativePath) (.meeting (.malformed "artifact path is unsafe"))
  ((MeetingPath.above (components relativePath)).tail.forM fun directory =>
    requirePrivateDirectory tree (.entry directory)).mapError .meeting
  return livePath relativePath

/-- `path_present`.  Below a file there is nothing to look at. -/
def pathPresent (tree : ArtifactTree B) (p : MeetingPath) : Except RetentionError Bool :=
  match tree.node p with
  | some _ => .ok true
  | none =>
    match (parent? p).bind tree.node with
    | some (.file _ _) => .error (.io .other)
    | _ => .ok false

/-- `validate_deletion_directory`. -/
def validateDeletionDirectory (tree : ArtifactTree B) : Except RetentionError Unit :=
  match tree.node deletionDir with
  | none => .ok ()
  | some _ => (requirePrivateDirectory tree deletionDir).mapError .meeting

/-- `deletion_receipt_present`. -/
def deletionReceiptPresent (tree : ArtifactTree B) : Except RetentionError Bool :=
  pathPresent tree receiptPath

/-- One audio path in the loop of `ensure_no_unbound_audio`. -/
def ensureAbsent (tree : ArtifactTree B) (relative : String) : Except RetentionError Unit := do
  let staged ← stagedPath relative
  let live ← pathPresent tree (livePath relative)
  refuseIf live .unexplainedAudioLoss
  let present ← pathPresent tree staged
  refuseIf present .unexplainedAudioLoss

/-- `ensure_no_unbound_audio`. -/
def ensureNoUnboundAudio (tree : ArtifactTree B) (meeting : MeetingRecord) :
    Except RetentionError Unit :=
  let bound := (audioReferences meeting).map ArtifactRef.relativePath
  audioArtifactPaths.forM fun relative =>
    if relative ∈ bound then pure () else ensureAbsent tree relative

/-- `ensure_no_staged_audio_without_receipt`. -/
def ensureNoStagedAudioWithoutReceipt (tree : ArtifactTree B) : Except RetentionError Unit :=
  audioArtifactPaths.forM fun relative => do
    let staged ← stagedPath relative
    let present ← pathPresent tree staged
    refuseIf present .unexplainedAudioLoss

/-- The loop of `validate_receipt_binding`; `names` are those it has seen. -/
def bindArtifacts (references : List ArtifactRef) :
    List DeletedArtifact → List String → Except RetentionError Unit
  | [], _ => .ok ()
  | artifact :: rest, names => do
    refuseIf (artifact.relativeName ∈ names) .malformedReceipt
    let reference ← orRefuse
      (references.find? fun reference => reference.relativePath == artifact.relativeName)
      .malformedReceipt
    refuseIf (artifact.sha256 ≠ reference.sha256) .malformedReceipt
    bindArtifacts references rest (artifact.relativeName :: names)

/-- `validate_receipt_binding`. -/
def validateReceiptBinding (meeting : MeetingRecord) (receipt : AudioDeletionReceipt) :
    Except RetentionError Unit := do
  let captureSession ← orRefuse meeting.artifacts.captureSession .malformedReceipt
  refuseIf (receipt.captureSessionSha256 ≠ captureSession.sha256) .malformedReceipt
  let references := audioReferences meeting
  refuseIf (references = [] ∨ receipt.artifacts.length ≠ references.length) .malformedReceipt
  bindArtifacts references receipt.artifacts []

variable [Platform B]

/-- `inspect_audio`. -/
def inspectAudio (tree : ArtifactTree B) (p : MeetingPath) (relativeName : String) :
    Except RetentionError DeletedArtifact := do
  let bytes ← (openPrivateFile tree p).mapError fun _ => .invalidAudio
  return {
    relativeName
    byteSize := UInt64.ofNat (ByteString.size bytes)
    sha256 := Platform.sha256 bytes }

/-- `inspect_audio`, compared with the receipt. -/
def requireAudio (tree : ArtifactTree B) (p : MeetingPath) (expected : DeletedArtifact) :
    Except RetentionError Unit := do
  let actual ← inspectAudio tree p expected.relativeName
  refuseIf (actual ≠ expected) .unexplainedAudioLoss

/-- `load_receipt`. -/
def loadReceipt (tree : ArtifactTree B) : Except RetentionError AudioDeletionReceipt := do
  let bytes ← (readPrivateBytes tree receiptPath maxReceiptBytes).mapError .meeting
  orRefuse (fromSlice bytes : Option AudioDeletionReceipt) .malformedReceipt

/-- One artifact in the loop of `validate_receipt_storage`. -/
def validateStorage (tree : ArtifactTree B) (state : DeletionState) (expected : DeletedArtifact) :
    Except RetentionError Unit := do
  let live ← resolveArtifact tree expected.relativeName
  let staged ← stagedPath expected.relativeName
  let livePresent ← pathPresent tree live
  let stagedPresent ← pathPresent tree staged
  match state with
  | .deleting => do
    refuseIf (livePresent = stagedPresent) .unexplainedAudioLoss
    requireAudio tree (if livePresent then live else staged) expected
  | .staged => do
    refuseIf livePresent .unexplainedAudioLoss
    if stagedPresent then requireAudio tree staged expected else pure ()
  | .removed => refuseIf (livePresent ∨ stagedPresent) .unexplainedAudioLoss

/-- `validate_receipt_storage`. -/
def validateReceiptStorage (tree : ArtifactTree B) (meeting : MeetingRecord)
    (receipt : AudioDeletionReceipt) : Except RetentionError Unit := do
  ensureNoUnboundAudio tree meeting
  receipt.artifacts.forM (validateStorage tree receipt.state)

/-- The check of a record whose audio is released against its receipt. -/
def validateReleased (m : MeetingDirectory B) (meeting : MeetingRecord)
    (receipt : AudioDeletionReceipt) : Except RetentionError Unit :=
  if meeting.retention.state = .released then do
    let storedReceipt ← orRefuse meeting.retention.deletionReceipt .malformedReceipt
    (verifyArtifactRef m.reader storedReceipt).mapError .meeting
    refuseIf (receipt.state ≠ .removed) .malformedReceipt
  else .ok ()

/-- `preflight_meeting_retention`. -/
def preflightMeetingRetention (m : MeetingDirectory B) (meeting : MeetingRecord) :
    Except RetentionError Unit := do
  (meeting.validate B meeting.meetingId).mapError .meeting
  (verifyRecordStaticArtifacts m.reader meeting).mapError .meeting
  validateDeletionDirectory m.tree
  if ← deletionReceiptPresent m.tree then do
    let receipt ← loadReceipt m.tree
    validateReceiptBinding meeting receipt
    validateReleased m meeting receipt
    validateReceiptStorage m.tree meeting receipt
  else do
    refuseIf (meeting.retention.state = .deleting ∨ meeting.retention.state = .released)
      .unexplainedAudioLoss
    ensureNoStagedAudioWithoutReceipt m.tree
    if meeting.lifecycle ≠ .incomplete then ensureNoUnboundAudio m.tree meeting else pure ()
    (verifyRecordArtifacts m.reader meeting).mapError .meeting

end Reading

/-! ## The steps of a deletion -/

section Programs

variable {B : Type} [Platform B]

/-- The names of the temporary files of the receipt, drawn afresh for a call. -/
structure Choices where
  created : Uuid
  staged : Uuid
  removed : Uuid

/-- `write_meeting`. -/
def writeMeeting (name : String) (meeting : MeetingRecord) :
    Durable (MeetingDirectory B) RetentionError Unit := do
  let bytes ← Durable.lift ((meetingBytes meeting name).mapError .meeting)
  MeetingDirectory.replaceRecord bytes

/-- `durable_replace` of the receipt. -/
def replaceReceipt (nonce : Uuid) (receipt : AudioDeletionReceipt) :
    Durable (ArtifactTree B) RetentionError Unit :=
  Durable.mapError .io (durableReplace receiptPath (receiptTemporary nonce) (toVecPretty receipt))

/-- Where a file of a receipt in the state `Deleting` stands: its live place, its
staged place, and whether it is still live. -/
def locateArtifact (tree : ArtifactTree B) (expected : DeletedArtifact) :
    Except RetentionError (MeetingPath × MeetingPath × Bool) := do
  let live ← resolveArtifact tree expected.relativeName
  let staged ← stagedPath expected.relativeName
  let livePresent ← pathPresent tree live
  let stagedPresent ← pathPresent tree staged
  refuseIf (livePresent = stagedPresent) .unexplainedAudioLoss
  requireAudio tree (if livePresent then live else staged) expected
  return (live, staged, livePresent)

/-- The loop that renames what is still live. -/
def stageArtifacts : List (MeetingPath × MeetingPath × Bool) →
    Durable (ArtifactTree B) RetentionError Unit
  | [] => pure ()
  | (live, staged, true) :: rest => do
    Durable.mapError .io (Durable.step (Volume.rename live staged))
    stageArtifacts rest
  | (_, _, false) :: rest => stageArtifacts rest

/-- The staged place of a file, if there is something to remove. -/
def stagedToRemove (tree : ArtifactTree B) (expected : DeletedArtifact) :
    Except RetentionError (Option MeetingPath) := do
  let live ← resolveArtifact tree expected.relativeName
  let livePresent ← pathPresent tree live
  refuseIf livePresent .unexplainedAudioLoss
  let staged ← stagedPath expected.relativeName
  let stagedPresent ← pathPresent tree staged
  if stagedPresent then do
    requireAudio tree staged expected
    return some staged
  else return none

/-- The loop that removes the staged files. -/
def removeArtifacts : List MeetingPath → Durable (ArtifactTree B) RetentionError Unit
  | [] => pure ()
  | staged :: rest => do
    Durable.mapError .io (Durable.step (Volume.removeFile staged))
    removeArtifacts rest

/-- `finalize_released_record`. -/
def finalizeReleasedRecord (m : MeetingDirectory B) (meeting : MeetingRecord) :
    Except RetentionError MeetingRecord := do
  let deletionReceipt ← (artifactRef m.reader receiptRelative).mapError .meeting
  return { meeting with
    retention := { meeting.retention with
      state := .released, deletionReceipt := some deletionReceipt }
    pendingStorageOperation := none }

/-- The part of `finish_staged_removal` for a receipt in the state `Deleting`. -/
def stageLive (choices : Choices) (receipt : AudioDeletionReceipt) :
    Durable (ArtifactTree B) RetentionError AudioDeletionReceipt :=
  if receipt.state = .deleting then do
    let locations ← Durable.inspect fun tree => receipt.artifacts.mapM (locateArtifact tree)
    stageArtifacts locations
    replaceReceipt choices.staged { receipt with state := .staged }
    pure { receipt with state := .staged }
  else pure receipt

/-- The part that removes what is staged. -/
def removeStaged (choices : Choices) (receipt : AudioDeletionReceipt) :
    Durable (ArtifactTree B) RetentionError Unit := do
  let places ← Durable.inspect fun tree => receipt.artifacts.mapM (stagedToRemove tree)
  removeArtifacts (places.filterMap id)
  replaceReceipt choices.removed { receipt with state := .removed }

/-- `finish_staged_removal`; the answer is the record it leaves to be written. -/
def finishStagedRemoval (choices : Choices) (meeting : MeetingRecord)
    (receipt : AudioDeletionReceipt) : Durable (MeetingDirectory B) RetentionError MeetingRecord := do
  Durable.lift (validateReceiptBinding meeting receipt)
  Durable.inspect fun m => validateReceiptStorage m.tree meeting receipt
  if receipt.state = .removed then Durable.inspect fun m => finalizeReleasedRecord m meeting
  else do
    MeetingDirectory.inTree do
      let receipt ← stageLive choices receipt
      removeStaged choices receipt
    Durable.inspect fun m => finalizeReleasedRecord m meeting

/-- The record while its audio is being removed. -/
def deletingRecord (meeting : MeetingRecord) : MeetingRecord :=
  { meeting with
    retention := { meeting.retention with state := .deleting }
    pendingStorageOperation := some .audioDeletionV1 }

/-- One recorded file, inspected before a deletion begins. -/
def inspectReference (tree : ArtifactTree B) (reference : ArtifactRef) :
    Except RetentionError DeletedArtifact := do
  let live ← resolveArtifact tree reference.relativePath
  let inspected ← inspectAudio tree live reference.relativePath
  refuseIf (inspected.sha256 ≠ reference.sha256) .unexplainedAudioLoss
  return inspected

/-- The receipt of a deletion that begins. -/
def newReceipt (tree : ArtifactTree B) (meeting : MeetingRecord) :
    Except RetentionError AudioDeletionReceipt := do
  let captureSession ← orRefuse meeting.artifacts.captureSession .unexplainedAudioLoss
  let artifacts ← (audioReferences meeting).mapM (inspectReference tree)
  refuseIf (artifacts = []) .unexplainedAudioLoss
  return {
    schema := .v1
    captureSessionSha256 := captureSession.sha256
    state := .deleting
    artifacts := artifacts.insertionSort fun left right => left.relativeName ≤ right.relativeName }

/-- `reconcile_meeting_audio_deletion` once a receipt is there. -/
def resumeDeletion (choices : Choices) (name : String) (meeting : MeetingRecord) :
    Durable (MeetingDirectory B) RetentionError (MeetingRecord × MeetingRetentionResult) := do
  let receipt ← Durable.inspect fun m => loadReceipt m.tree
  Durable.lift (validateReceiptBinding meeting receipt)
  Durable.inspect fun m => validateReleased m meeting receipt
  let settled ← finishStagedRemoval choices meeting receipt
  writeMeeting name settled
  pure (settled, if meeting.retention.state = .released then .notDue else .recoveredRemoval)

/-- `reconcile_meeting_audio_deletion` of retained audio that is to be released. -/
def beginDeletion (choices : Choices) (name : String) (meeting : MeetingRecord) :
    Durable (MeetingDirectory B) RetentionError (MeetingRecord × MeetingRetentionResult) := do
  let receipt ← Durable.inspect fun m => newReceipt m.tree meeting
  MeetingDirectory.inTree do
    Durable.mapError .io (createPrivateDir deletionDir)
    Durable.mapError .io
      (durableCreateNew receiptPath (receiptTemporary choices.created) (toVecPretty receipt))
  writeMeeting name (deletingRecord meeting)
  let settled ← finishStagedRemoval choices (deletingRecord meeting) receipt
  writeMeeting name settled
  pure (settled, .audioReleased)

/-- `reconcile_meeting_audio_deletion` in the meeting directory `name`; the
answer holds the record as the call leaves it. -/
def reconcileMeetingAudioDeletion (choices : Choices) (name : String) (meeting : MeetingRecord)
    (releaseRetainedAudio : Bool) :
    Durable (MeetingDirectory B) RetentionError (MeetingRecord × MeetingRetentionResult) := do
  Durable.inspect fun m => preflightMeetingRetention m meeting
  if ← Durable.inspect fun m => deletionReceiptPresent m.tree then
    resumeDeletion choices name meeting
  else do
    Durable.lift (refuseIf
      (meeting.retention.state = .deleting ∨ meeting.retention.state = .released)
      .unexplainedAudioLoss)
    Durable.inspect fun m => (verifyRecordArtifacts m.reader meeting).mapError .meeting
    if meeting.retention.state = .neverCreated ∨ releaseRetainedAudio = false then
      pure (meeting, .notDue)
    else beginDeletion choices name meeting

/-- Whether the audio of a meeting is due for release. -/
def isDue (meeting : MeetingRecord) (nowEpochSeconds : UInt64) : Bool :=
  meeting.retention.nextDeletionAtEpochSeconds.any fun deadline => decide (deadline ≤ nowEpochSeconds)

/-- `reconcile_meeting_retention`. -/
def reconcileMeetingRetention (choices : Choices) (name : String) (meeting : MeetingRecord)
    (nowEpochSeconds : UInt64) (executeDue : Bool) :
    Durable (MeetingDirectory B) RetentionError (MeetingRecord × MeetingRetentionResult) :=
  reconcileMeetingAudioDeletion choices name meeting
    (executeDue && isDue meeting nowEpochSeconds)

end Programs

end Retention

end YawnApp.SessionCore
