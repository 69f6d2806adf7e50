import YawnApp.Foundation.VolumeTree
import YawnApp.SessionCore.TranscriptionQueue

set_option autoImplicit false

/-!
# Transcript deletion (`transcript_deletion.rs`)

`transcript-deletion/1` removes the transcripts of a meeting and the notes made
from them and keeps the capture.  A receipt beside the meeting names what is
removed by digest; the record is detached from it, the directories are renamed
below `deletion/`, removed there, and the receipt says so.  Each of these is one
or more durable steps, and a call that finds a receipt goes on from where it
says the last one stopped.
-/

namespace YawnApp.SessionCore

open YawnApp.Foundation

/-! ## The receipt -/

inductive TranscriptDeletionSchema where
  | v1
deriving DecidableEq, Repr

inductive TranscriptDeletionState where
  /-- Receipt written and the record may still point to its source material. -/
  | deleting
  /-- The record is detached and all source directories are staged privately. -/
  | staged
  /-- Source directories are gone and the meeting remains captured-only. -/
  | removed
deriving DecidableEq, Repr

/-- A removed derivative file, recorded by digest rather than content. -/
structure DeletedTranscriptArtifact where
  relativeName : String
  byteSize : UInt64
  sha256 : String
deriving DecidableEq, Repr

structure TranscriptDeletionReceipt where
  schema : TranscriptDeletionSchema
  meetingId : String
  state : TranscriptDeletionState
  priorLifecycle : MeetingLifecycle
  sourceTranscriptSha256 : String
  notesDirectory : Bool
  artifacts : List DeletedTranscriptArtifact
deriving DecidableEq, Repr

inductive TranscriptDeletionOutcome where
  /-- The target meeting is active, so nothing was inspected or changed. -/
  | deferredActive
  /-- Transcript revisions and their generated notes were removed. -/
  | transcriptRemoved
  /-- A prior incomplete transcript removal was recovered and completed. -/
  | recoveredRemoval
  /-- The transcript deletion receipt already describes a completed removal. -/
  | alreadyRemoved
deriving DecidableEq, Repr

inductive TranscriptDeletionError where
  | coordination (e : MeetingCoordinationError)
  | meeting (e : MeetingError)
  | io (kind : IoError)
  | operationStore (e : OperationStoreError)
  | nonterminalProductOperation
  | noTranscript
  | noSuchMeeting
  | malformedReceipt
  | unsafeEntry
  | inventoryTooLarge
deriving DecidableEq, Repr

instance : Serde TranscriptDeletionSchema :=
  Serde.ofNames (fun | .v1 => "transcript-deletion/1") [.v1] (by intro a; cases a; rfl)

instance : Serde TranscriptDeletionState :=
  Serde.ofNames
    (fun
      | .deleting => "deleting"
      | .staged => "staged"
      | .removed => "removed")
    [.deleting, .staged, .removed] (by intro a; cases a <;> decide)

instance : Serde DeletedTranscriptArtifact where
  toValue a := .object
    [("relative_name", Serde.toValue a.relativeName), ("byte_size", Serde.toValue a.byteSize),
      ("sha256", Serde.toValue a.sha256)]
  fromValue v := do
    let fs ← closedFields ["relative_name", "byte_size", "sha256"] v
    return {
      relativeName := ← requiredField fs "relative_name"
      byteSize := ← requiredField fs "byte_size"
      sha256 := ← requiredField fs "sha256" }
  fromValue_toValue a := by
    refine (closedFields_bind rfl).trans ?_
    repeat refine (requiredField_bind rfl).trans ?_
    rfl
  plain_toValue a := Value.plain_object (by simp [Value.plainFields]) rfl
  toValue_ne_null a := by simp

instance : Serde TranscriptDeletionReceipt where
  toValue r := .object
    [("schema", Serde.toValue r.schema), ("meeting_id", Serde.toValue r.meetingId),
      ("state", Serde.toValue r.state), ("prior_lifecycle", Serde.toValue r.priorLifecycle),
      ("source_transcript_sha256", Serde.toValue r.sourceTranscriptSha256),
      ("notes_directory", Serde.toValue r.notesDirectory),
      ("artifacts", Serde.toValue r.artifacts)]
  fromValue v := do
    let fs ← closedFields ["schema", "meeting_id", "state", "prior_lifecycle",
      "source_transcript_sha256", "notes_directory", "artifacts"] v
    return {
      schema := ← requiredField fs "schema"
      meetingId := ← requiredField fs "meeting_id"
      state := ← requiredField fs "state"
      priorLifecycle := ← requiredField fs "prior_lifecycle"
      sourceTranscriptSha256 := ← requiredField fs "source_transcript_sha256"
      notesDirectory := ← requiredField fs "notes_directory"
      artifacts := ← requiredField fs "artifacts" }
  fromValue_toValue r := by
    refine (closedFields_bind rfl).trans ?_
    repeat refine (requiredField_bind rfl).trans ?_
    rfl
  plain_toValue r := Value.plain_object (by simp [Value.plainFields]) rfl
  toValue_ne_null r := by simp

/-! ## Places -/

/-- `RECEIPT_RELATIVE_PATH`. -/
def deletionReceiptComponents : List String := ["deletion", "transcript-deletion.json"]

/-- `deletion_dir`. -/
def deletionDir : MeetingPath := .entry ["deletion"]

/-- `receipt_path`. -/
def deletionReceiptPath : MeetingPath := .entry deletionReceiptComponents

/-- `staging_dir`. -/
def stagingComponents : List String := ["deletion", "transcript-deletion-staged"]

def stagingDir : MeetingPath := .entry stagingComponents

/-- `MAX_INVENTORY_ENTRIES`. -/
def maxInventoryEntries : Nat := 4096

namespace MeetingPath

/-- The place that `p` is below the directory `root`. -/
def under (root : List String) : MeetingPath → MeetingPath
  | entry components => entry (root ++ components)
  | temporary components nonce => temporary (root ++ components) nonce

/-- `strip_prefix`: where a place is below the directory `root`, or at it. -/
def relative? (root : List String) : MeetingPath → Option MeetingPath
  | entry components =>
    if root <+: components then some (entry (components.drop root.length)) else none
  | temporary components nonce =>
    if root <+: components ∧ components ≠ root then
      some (temporary (components.drop root.length) nonce)
    else none

end MeetingPath

/-! ## Reading the tree -/

section Deletion

variable {B : Type}

/-- `private_directory_exists`. -/
def privateDirectoryExists (tree : ArtifactTree B) (p : MeetingPath) :
    Except TranscriptDeletionError Bool :=
  match tree.node p with
  | none => .ok false
  | some _ => do
    (requirePrivateDirectory tree p).mapError .meeting
    return true

/-- `private_file_exists`. -/
def privateFileExists (tree : ArtifactTree B) (p : MeetingPath) :
    Except TranscriptDeletionError Bool :=
  match tree.node p with
  | none => .ok false
  | some (.file mode _) => do
    refuseIf (permissions mode ≠ 0o600) .unsafeEntry
    return true
  | some _ => .error .unsafeEntry

/-- Everything below a directory, with its place there, as a walk finds it. -/
def ArtifactTree.below (tree : ArtifactTree B) (root : List String) :
    List (MeetingPath × Node B) :=
  (tree.entries.filterMap fun entry => (entry.1.relative? root).map fun p => (p, entry.2)).filter
    fun found => found.1 ≠ .entry []

/-- `format!("{prefix}/{relative}")`. -/
def inventoryName (directory : String) (p : MeetingPath) : String :=
  String.intercalate "/" (directory :: p.parts)

/-- The check of `validate_receipt_shape` on one name: components that are all
names, at least two of them, of which the first is the directory. -/
def artifactDirectory (relativeName : String) : Except TranscriptDeletionError String :=
  if isSafeArtifactPath relativeName then
    match components relativeName with
    | directory :: _ :: _ => .ok directory
    | _ => .error .malformedReceipt
  else .error .malformedReceipt

/-- The loop of `validate_receipt_shape`; it says whether the source transcript
is listed. -/
def validateArtifacts (receipt : TranscriptDeletionReceipt) :
    List DeletedTranscriptArtifact → Option String → Bool → Except TranscriptDeletionError Bool
  | [], _, sourceIsListed => .ok sourceIsListed
  | artifact :: rest, previous, sourceIsListed => do
    refuseIf (¬ isSha256 artifact.sha256) .malformedReceipt
    refuseIf (∃ name ∈ previous, name ≥ artifact.relativeName) .malformedReceipt
    let directory ← artifactDirectory artifact.relativeName
    if directory = "transcript" then
      validateArtifacts receipt rest (some artifact.relativeName)
        (sourceIsListed || artifact.sha256 == receipt.sourceTranscriptSha256)
    else do
      refuseIf (¬ (directory = "notes" ∧ receipt.notesDirectory)) .malformedReceipt
      validateArtifacts receipt rest (some artifact.relativeName) sourceIsListed

/-- `validate_receipt_shape`. -/
def validateReceiptShape (receipt : TranscriptDeletionReceipt) :
    Except TranscriptDeletionError Unit := do
  refuseIf (¬ validOpaqueId receipt.meetingId ∨ ¬ isSha256 receipt.sourceTranscriptSha256 ∨
    receipt.priorLifecycle ∉
      [MeetingLifecycle.transcriptReady, .summaryFailed, .ready] ∨ receipt.artifacts = [])
    .malformedReceipt
  let sourceIsListed ← validateArtifacts receipt receipt.artifacts none false
  refuseIf (¬ sourceIsListed) .malformedReceipt

variable [Platform B]

/-- `load_receipt`. -/
def loadDeletionReceipt (tree : ArtifactTree B) :
    Except TranscriptDeletionError TranscriptDeletionReceipt := do
  let bytes ← (readPrivateBytes tree deletionReceiptPath maxReceiptBytes).mapError .meeting
  let receipt ← orRefuse (fromSlice bytes : Option TranscriptDeletionReceipt) .malformedReceipt
  validateReceiptShape receipt
  return receipt

/-- One entry of the walk of `append_inventory`. -/
def inventoryEntry (directory : String) (artifacts : List DeletedTranscriptArtifact) :
    MeetingPath × Node B → Except TranscriptDeletionError (List DeletedTranscriptArtifact)
  | (_, .symlink) => .error .unsafeEntry
  | (_, .directory mode) => do
    refuseIf (permissions mode ≠ 0o700) (.meeting .invalidPrivateStorage)
    return artifacts
  | (p, .file mode bytes) => do
    refuseIf (artifacts.length ≥ maxInventoryEntries) .inventoryTooLarge
    refuseIf (permissions mode ≠ 0o600) .unsafeEntry
    return artifacts ++ [{
      relativeName := inventoryName directory p
      byteSize := UInt64.ofNat (ByteString.size bytes)
      sha256 := Platform.sha256 bytes }]

/-- `append_inventory` of the directory at `root`. -/
def appendInventory (tree : ArtifactTree B) (root : List String) (directory : String)
    (artifacts : List DeletedTranscriptArtifact) :
    Except TranscriptDeletionError (List DeletedTranscriptArtifact) := do
  (requirePrivateDirectory tree (.entry root)).mapError .meeting
  (tree.below root).foldlM (inventoryEntry directory) artifacts

/-- The two calls of `append_inventory` and the sort, for the directories below
`root`. -/
def takeInventory (tree : ArtifactTree B) (root : List String) (notesDirectory : Bool) :
    Except TranscriptDeletionError (List DeletedTranscriptArtifact) := do
  let artifacts ← appendInventory tree (root ++ ["transcript"]) "transcript" []
  let artifacts ←
    if notesDirectory then appendInventory tree (root ++ ["notes"]) "notes" artifacts
    else pure artifacts
  return artifacts.insertionSort fun left right => left.relativeName ≤ right.relativeName

/-- `take_live_inventory`. -/
def takeLiveInventory (tree : ArtifactTree B) :
    Except TranscriptDeletionError (Bool × List DeletedTranscriptArtifact) := do
  let transcript ← privateDirectoryExists tree (.entry ["transcript"])
  refuseIf (¬ transcript) .noTranscript
  let notesDirectory ← privateDirectoryExists tree (.entry ["notes"])
  let artifacts ← takeInventory tree [] notesDirectory
  return (notesDirectory, artifacts)

/-- `inventory_contains`. -/
def inventoryContains (artifacts : List DeletedTranscriptArtifact) (reference : ArtifactRef) : Bool :=
  artifacts.any fun artifact =>
    artifact.relativeName == reference.relativePath && artifact.sha256 == reference.sha256

/-- `validate_initial_binding`. -/
def validateInitialBinding (meeting : MeetingRecord) (receipt : TranscriptDeletionReceipt) :
    Except TranscriptDeletionError Unit := do
  refuseIf (receipt.priorLifecycle ∉ [MeetingLifecycle.transcriptReady, .summaryFailed, .ready] ∨
    meeting.lifecycle ≠ receipt.priorLifecycle) .malformedReceipt
  let transcript ← orRefuse meeting.artifacts.currentTranscript .malformedReceipt
  refuseIf (transcript.sha256 ≠ receipt.sourceTranscriptSha256 ∨
    ¬ inventoryContains receipt.artifacts transcript) .malformedReceipt
  refuseIf (∃ note ∈ meeting.artifacts.currentNote,
    ¬ inventoryContains receipt.artifacts note.json ∨
      ¬ inventoryContains receipt.artifacts note.markdown) .malformedReceipt

/-- What `validate_staged_layout` expects in the staging directory. -/
def expectedNames (receipt : TranscriptDeletionReceipt) : List String :=
  if receipt.notesDirectory then ["notes", "transcript"] else ["transcript"]

/-- One entry of the staging directory. -/
def stagedName (tree : ArtifactTree B) (receipt : TranscriptDeletionReceipt) (p : MeetingPath) :
    Except TranscriptDeletionError String := do
  let name := p.parts.getLastD ""
  refuseIf (name ∉ expectedNames receipt) .unsafeEntry
  (requirePrivateDirectory tree p).mapError .meeting
  return name

/-- `validate_staged_layout`. -/
def validateStagedLayout (tree : ArtifactTree B) (receipt : TranscriptDeletionReceipt) :
    Except TranscriptDeletionError Unit := do
  let transcript ← privateDirectoryExists tree (.entry ["transcript"])
  refuseIf transcript .malformedReceipt
  let notes ← privateDirectoryExists tree (.entry ["notes"])
  refuseIf notes .malformedReceipt
  let staged ← privateDirectoryExists tree stagingDir
  refuseIf (¬ staged) .malformedReceipt
  let seen ← ((tree.readDir stagingDir).map Prod.fst).mapM (stagedName tree receipt)
  refuseIf ((seen.insertionSort fun a b => a ≤ b) ≠ expectedNames receipt) .malformedReceipt
  let actual ← takeInventory tree stagingComponents receipt.notesDirectory
  refuseIf (actual ≠ receipt.artifacts) .malformedReceipt

/-- `staged_material_is_gone`. -/
def stagedMaterialIsGone (tree : ArtifactTree B) : Except TranscriptDeletionError Bool := do
  if ← privateDirectoryExists tree (.entry ["transcript"]) then return false
  if ← privateDirectoryExists tree (.entry ["notes"]) then return false
  let staged ← privateDirectoryExists tree stagingDir
  return !staged

/-- `terminal_record_is_consistent`. -/
def terminalRecordIsConsistent (tree : ArtifactTree B) (meeting : MeetingRecord)
    (receipt : TranscriptDeletionReceipt) : Except TranscriptDeletionError Unit := do
  refuseIf (receipt.state ≠ .removed ∨ meeting.lifecycle ≠ .captured ∨
    meeting.artifacts.currentTranscript.isSome ∨ meeting.artifacts.currentNote.isSome ∨
    meeting.pendingStorageOperation.isSome) .malformedReceipt
  let gone ← stagedMaterialIsGone tree
  refuseIf (¬ gone) .malformedReceipt

/-! ## The steps of a deletion -/

/-- The names of the three temporary files of the receipt, and the order in
which `remove_dir_all` takes the entries of the staging directory. -/
structure DeletionChoices (B : Type) where
  created : Uuid
  staged : Uuid
  removed : Uuid
  order : ArtifactTree B → List MeetingPath

/-- The temporary file beside the receipt. -/
def deletionTemporary (nonce : Uuid) : MeetingPath := .temporary deletionReceiptComponents nonce

/-- `write_receipt` of a receipt that is new. -/
def createDeletionReceipt (nonce : Uuid) (receipt : TranscriptDeletionReceipt) :
    Durable (ArtifactTree B) TranscriptDeletionError Unit :=
  Durable.mapError .io
    (durableCreateNew deletionReceiptPath (deletionTemporary nonce) (toVecPretty receipt))

/-- `write_receipt` of a receipt that replaces another. -/
def replaceDeletionReceipt (nonce : Uuid) (receipt : TranscriptDeletionReceipt) :
    Durable (ArtifactTree B) TranscriptDeletionError Unit :=
  Durable.mapError .io
    (durableReplace deletionReceiptPath (deletionTemporary nonce) (toVecPretty receipt))

/-- `write_meeting`. -/
def writeMeetingRecord (name : String) (meeting : MeetingRecord) :
    Durable (MeetingDirectory B) TranscriptDeletionError Unit := do
  let bytes ← Durable.lift ((meetingBytes meeting name).mapError .meeting)
  MeetingDirectory.replaceRecord bytes

/-- The record without its transcript and note. -/
def detachedRecord (meeting : MeetingRecord) : MeetingRecord :=
  { meeting with
    lifecycle := .captured
    artifacts := { meeting.artifacts with currentTranscript := none, currentNote := none }
    pendingStorageOperation := some .transcriptDeletionV1 }

/-- `detach_record`. -/
def detachRecord (name : String) (meeting : MeetingRecord) (receipt : TranscriptDeletionReceipt) :
    Durable (MeetingDirectory B) TranscriptDeletionError MeetingRecord :=
  if meeting.pendingStorageOperation = some .transcriptDeletionV1 then do
    Durable.lift (refuseIf (meeting.lifecycle ≠ .captured ∨
      meeting.artifacts.currentTranscript.isSome ∨ meeting.artifacts.currentNote.isSome)
      .malformedReceipt)
    pure meeting
  else do
    Durable.lift (refuseIf meeting.pendingStorageOperation.isSome .nonterminalProductOperation)
    Durable.lift (validateInitialBinding meeting receipt)
    writeMeetingRecord name (detachedRecord meeting)
    pure (detachedRecord meeting)

/-- `rename(2)` of a directory, with everything in it, to a free name. -/
def renameDirectory (source target : List String) (tree : ArtifactTree B) :
    Except IoError (ArtifactTree B) :=
  match tree.node (.entry source) with
  | none => .error .notFound
  | some _ =>
    if (tree.node (.entry target)).isSome then .error .alreadyExists
    else if tree.parentPresent (.entry target) then
      .ok (tree.relocate fun p => (p.relative? source).map fun q => q.under target)
    else .error .notFound

/-- `stage_target`. -/
def stageTarget (name : String) (expected : Bool) :
    Durable (ArtifactTree B) TranscriptDeletionError Unit := do
  let live ← Durable.inspect fun tree => privateDirectoryExists tree (.entry [name])
  let staged ← Durable.inspect fun tree =>
    privateDirectoryExists tree (.entry (stagingComponents ++ [name]))
  match live, staged, expected with
  | true, true, _ => Durable.fail .malformedReceipt
  | true, false, true =>
    Durable.mapError .io (Durable.step (renameDirectory [name] (stagingComponents ++ [name])))
  | false, true, true => pure ()
  | false, false, true => Durable.fail .malformedReceipt
  | false, false, false => pure ()
  | true, false, false => Durable.fail .malformedReceipt
  | false, true, false => Durable.fail .malformedReceipt

/-- `remove_staged_material`. -/
def removeStagedMaterial (choices : DeletionChoices B) (receipt : TranscriptDeletionReceipt) :
    Durable (ArtifactTree B) TranscriptDeletionError Unit := do
  if ← Durable.inspect stagedMaterialIsGone then pure ()
  else do
    Durable.inspect fun tree => validateStagedLayout tree receipt
    let places ← Durable.inspect fun tree => .ok (choices.order tree)
    Durable.mapError .io (Volume.removeAll places)

/-- The first part of `finish_removal`, for a receipt in the state `Deleting`. -/
def finishDeleting (choices : DeletionChoices B) (name : String) (meeting : MeetingRecord)
    (receipt : TranscriptDeletionReceipt) :
    Durable (MeetingDirectory B) TranscriptDeletionError (MeetingRecord × TranscriptDeletionReceipt) :=
  if receipt.state = .deleting then do
    let meeting ← detachRecord name meeting receipt
    MeetingDirectory.inTree do
      Durable.mapError .io (createPrivateDir stagingDir)
      stageTarget "transcript" true
      stageTarget "notes" receipt.notesDirectory
      Durable.inspect fun tree => validateStagedLayout tree receipt
      replaceDeletionReceipt choices.staged { receipt with state := .staged }
    pure (meeting, { receipt with state := .staged })
  else pure (meeting, receipt)

/-- The second part, for a receipt in the state `Staged`. -/
def finishStaged (choices : DeletionChoices B) (receipt : TranscriptDeletionReceipt) :
    Durable (MeetingDirectory B) TranscriptDeletionError TranscriptDeletionReceipt :=
  if receipt.state = .staged then do
    MeetingDirectory.inTree do
      removeStagedMaterial choices receipt
      replaceDeletionReceipt choices.removed { receipt with state := .removed }
    pure { receipt with state := .removed }
  else pure receipt

/-- The last part, for a receipt in the state `Removed`. -/
def finishRemoved (name : String) (meeting : MeetingRecord) (receipt : TranscriptDeletionReceipt) :
    Durable (MeetingDirectory B) TranscriptDeletionError Unit :=
  if receipt.state = .removed then do
    let settled : MeetingRecord := { meeting with pendingStorageOperation := none }
    if meeting.pendingStorageOperation = some .transcriptDeletionV1 then do
      writeMeetingRecord name settled
      Durable.inspect fun m => terminalRecordIsConsistent m.tree settled receipt
    else Durable.inspect fun m => terminalRecordIsConsistent m.tree meeting receipt
  else pure ()

/-- `finish_removal`. -/
def finishRemoval (choices : DeletionChoices B) (name : String) (meeting : MeetingRecord)
    (receipt : TranscriptDeletionReceipt) :
    Durable (MeetingDirectory B) TranscriptDeletionError Unit := do
  let (meeting, receipt) ← finishDeleting choices name meeting receipt
  let receipt ← finishStaged choices receipt
  finishRemoved name meeting receipt

/-! ## The operation -/

/-- `has_nonterminal_product_operation`; `scanned` is what opening and scanning
the operation store answered. -/
def hasNonterminalProductOperation (scanned : Except OperationStoreError OperationStore.Scanned)
    (meetingId : String) : Except TranscriptDeletionError Bool := do
  let receipts ← scanned.mapError .operationStore
  return receipts.entries.any fun entry =>
    entry.2.commit.isNone && entry.2.request.meetingId.text == meetingId

/-- What `delete_meeting_transcript` checks before it writes anything, and the
receipt that it then writes. -/
def admitDeletion (scanned : Except OperationStoreError OperationStore.Scanned) (name : String)
    (meeting : MeetingRecord) (m : MeetingDirectory B) :
    Except TranscriptDeletionError TranscriptDeletionReceipt := do
  refuseIf meeting.pendingStorageOperation.isSome .nonterminalProductOperation
  let nonterminal ← hasNonterminalProductOperation scanned name
  refuseIf nonterminal .nonterminalProductOperation
  refuseIf (meeting.lifecycle ∉ [MeetingLifecycle.transcriptReady, .summaryFailed, .ready])
    .noTranscript
  let transcript ← orRefuse meeting.artifacts.currentTranscript .noTranscript
  (verifyRecordArtifacts m.reader meeting).mapError .meeting
  let (notesDirectory, artifacts) ← takeLiveInventory m.tree
  return {
    schema := .v1, meetingId := name, state := .deleting, priorLifecycle := meeting.lifecycle
    sourceTranscriptSha256 := transcript.sha256, notesDirectory, artifacts }

/-- `delete_meeting_transcript` in the meeting directory. -/
def deleteTranscriptIn (choices : DeletionChoices B)
    (scanned : Except OperationStoreError OperationStore.Scanned) (name : String) :
    Durable (MeetingDirectory B) TranscriptDeletionError TranscriptDeletionOutcome := do
  Durable.inspect fun m => (requirePrivateDirectory m.tree (.entry [])).mapError .meeting
  let meeting ← Durable.inspect fun m => (loadMeeting m.reader name).mapError .meeting
  Durable.lift (refuseIf (meeting.meetingId ≠ name)
    (.meeting (.malformed "meeting identifier mismatch")))
  if ← Durable.inspect fun m => privateFileExists m.tree deletionReceiptPath then do
    let receipt ← Durable.inspect fun m => loadDeletionReceipt m.tree
    Durable.lift (refuseIf (receipt.meetingId ≠ name) .malformedReceipt)
    finishRemoval choices name meeting receipt
    pure (if receipt.state = .removed ∧ meeting.pendingStorageOperation.isNone then .alreadyRemoved
      else .recoveredRemoval)
  else do
    let receipt ← Durable.inspect (admitDeletion scanned name meeting)
    MeetingDirectory.inTree do
      Durable.mapError .io (createPrivateDir deletionDir)
      createDeletionReceipt choices.created receipt
    finishRemoval choices name meeting receipt
    pure .transcriptRemoved

/-- `delete_meeting_transcript`; `lease` is what the coordination answers when
the meeting and the sequence are locked. -/
def deleteMeetingTranscript (choices : DeletionChoices B)
    (scanned : Except OperationStoreError OperationStore.Scanned)
    (lease : Except MeetingCoordinationError Unit) (meetingId : String) :
    Durable (Meetings B) TranscriptDeletionError TranscriptDeletionOutcome := do
  Durable.lift (refuseIf (¬ validOpaqueId meetingId)
    (.meeting (.malformed "meeting identifier mismatch")))
  match lease with
  | .error .alreadyActive => pure .deferredActive
  | .error .unavailable => Durable.fail (.coordination .unavailable)
  | .ok () => do
    Durable.inspect fun meetings => refuseIf (meetings.entry meetingId).isNone .noSuchMeeting
    Directory.within meetingId (deleteTranscriptIn choices scanned meetingId)

/-- `transcript_deletion_completed` in the meeting directory. -/
def transcriptDeletionCompleted (name : String) (m : MeetingDirectory B) :
    Except TranscriptDeletionError Bool := do
  (requirePrivateDirectory m.tree (.entry [])).mapError .meeting
  if ← privateFileExists m.tree deletionReceiptPath then do
    let receipt ← loadDeletionReceipt m.tree
    if receipt.meetingId ≠ name ∨ receipt.state ≠ .removed then return false
    else do
      let meeting ← (loadMeeting m.reader name).mapError .meeting
      terminalRecordIsConsistent m.tree meeting receipt
      return true
  else return false

/-! ## The startup reconciliation -/

/-- Whether the reconciliation takes up a meeting. -/
def deletionIsPending (name : String) (m : MeetingDirectory B) :
    Except TranscriptDeletionError Bool := do
  if ← privateFileExists m.tree deletionReceiptPath then do
    (requirePrivateDirectory m.tree (.entry [])).mapError .meeting
    let meeting ← (loadMeeting m.reader name).mapError .meeting
    if meeting.pendingStorageOperation = some .transcriptDeletionV1 then return true
    else do
      let receipt ← loadDeletionReceipt m.tree
      return decide (receipt.state ≠ .removed)
  else return false

/-- The loop of `reconcile_pending_transcript_deletions` over the entries of
`meetings/`.  The choices may be others for each meeting. -/
def reconcileNames (choices : String → DeletionChoices B)
    (scanned : Except OperationStoreError OperationStore.Scanned)
    (lease : String → Except MeetingCoordinationError Unit) :
    List String → List String → Durable (Meetings B) TranscriptDeletionError (List String)
  | [], ids => pure ids
  | name :: rest, ids =>
    if validOpaqueId name then do
      let pending ← Durable.inspect fun meetings =>
        match meetings.entry name with
        | none => .ok false
        | some m => deletionIsPending name m
      if pending then do
        match ← deleteMeetingTranscript (choices name) scanned (lease name) name with
        | .transcriptRemoved => reconcileNames choices scanned lease rest (ids ++ [name])
        | .recoveredRemoval => reconcileNames choices scanned lease rest (ids ++ [name])
        | .deferredActive => reconcileNames choices scanned lease rest ids
        | .alreadyRemoved => reconcileNames choices scanned lease rest ids
      else reconcileNames choices scanned lease rest ids
    else reconcileNames choices scanned lease rest ids

/-- `reconcile_pending_transcript_deletions`. -/
def reconcilePendingTranscriptDeletions (choices : String → DeletionChoices B)
    (scanned : Except OperationStoreError OperationStore.Scanned)
    (lease : String → Except MeetingCoordinationError Unit) :
    Durable (Meetings B) TranscriptDeletionError (List String) := do
  Durable.inspect fun meetings =>
    refuseIf (meetings.isPrivate = false) (.meeting .invalidPrivateStorage)
  let names ← Durable.inspect fun meetings => .ok meetings.names
  let ids ← reconcileNames choices scanned lease names []
  pure (ids.insertionSort fun a b => a ≤ b)

end Deletion

end YawnApp.SessionCore
