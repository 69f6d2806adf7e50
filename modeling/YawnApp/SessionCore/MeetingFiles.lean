import Mathlib.Data.List.Sort
import YawnApp.SessionCore.Meeting

set_option autoImplicit false

/-!
# The files of a meeting (`meeting.rs`, readers and writers)

A reader of the crate is given a meeting directory and opens private files
below it.  What it can see is a function from relative paths to contents, and
the readers here are written over such a function, so that they apply to a
whole volume and to the smaller model in which a meeting is just its files.

`Files` is that smaller model: the private files of one meeting by relative
path.  The record is the file `meeting.json` among them.
-/

namespace YawnApp.SessionCore

open YawnApp.Foundation

variable {B : Type}

/-- `open_private_file` below a meeting directory: the contents of the file, or
why it cannot be read.  The directories on the way are private. -/
abbrev Reader (B : Type) : Type := String → Except MeetingError B

/-- The private files of one meeting. -/
abbrev Files (B : Type) : Type := String → Option B

/-- A file that is not there is not found. -/
def Files.reader (files : Files B) : Reader B := fun path => orRefuse (files path) (.io .notFound)

/-- Put a file in place. -/
def Files.put (files : Files B) (path : String) (bytes : B) : Files B := fun other =>
  if other = path then some bytes else files other

@[simp] theorem Files.put_self (files : Files B) (path : String) (bytes : B) :
    files.put path bytes path = some bytes := if_pos rfl

theorem Files.put_of_ne {files : Files B} {path other : String} (bytes : B) (h : other ≠ path) :
    files.put path bytes other = files other := if_neg h

/-- The files of `old` are all in `new`, as they were. -/
def Files.Extends (old new : Files B) : Prop := ∀ path bytes, old path = some bytes →
  new path = some bytes

/-! ## References to files -/

/-- The test of `resolve_artifact`: relative, and every component a name.  A
single dot is dropped from a path except at its start. -/
def isSafeArtifactPath (path : String) : Bool :=
  let parts := path.toList.splitOn '/'
  path.toList.head? != some '/' && !parts.contains ['.', '.'] && parts.head? != some ['.']

section Readers

variable [Platform B]

/-- `hash_private_file` of a resolved artifact. -/
def hashArtifact (read : Reader B) (relativePath : String) : Except MeetingError String := do
  refuseIf (¬ isSafeArtifactPath relativePath) (.malformed "artifact path is unsafe")
  let bytes ← read relativePath
  return Platform.sha256 bytes

/-- `artifact_ref`. -/
def artifactRef (read : Reader B) (relativePath : String) : Except MeetingError ArtifactRef := do
  let sha256 ← hashArtifact read relativePath
  return { relativePath, sha256 }

/-- `verify_artifact_ref`. -/
def verifyArtifactRef (read : Reader B) (reference : ArtifactRef) : Except MeetingError Unit := do
  let sha256 ← hashArtifact read reference.relativePath
  refuseIf (sha256 ≠ reference.sha256) .artifactMismatch

/-- `read_private_bytes` of a file below the meeting directory. -/
def readBounded (read : Reader B) (path : String) (maximum : Nat) : Except MeetingError B := do
  let bytes ← read path
  refuseIf (ByteString.size bytes > maximum) .invalidPrivateStorage
  return bytes

/-! ## Capture receipts -/

/-- What a capture receipt says about one track. -/
structure CaptureReceiptArtifact where
  name : String
  bytes : UInt64
  sha256 : String
  mode : String
deriving DecidableEq, Repr

inductive CaptureInterruptionSchema where
  | v1
deriving DecidableEq, Repr

inductive CaptureInterruptionStatus where
  | interrupted
deriving DecidableEq, Repr

inductive CaptureInterruptionReason where
  | freshProcessRecovery
deriving DecidableEq, Repr

structure CaptureInterruptionReceipt where
  schema : CaptureInterruptionSchema
  status : CaptureInterruptionStatus
  reason : CaptureInterruptionReason
  meetingId : String
  artifacts : List CaptureReceiptArtifact
deriving DecidableEq

inductive CaptureSessionStatus where
  | incomplete
  | complete
  | failed
  | abandoned
deriving DecidableEq, Repr

/-- A `capture-session/2` receipt.  The crate reads it and never writes it;
its fields `quality`, `microphone` and `pauses` are read and not looked at. -/
structure CaptureSessionReceipt where
  status : CaptureSessionStatus
  startedAt : Value
  finalizedAt : Value
  health : Value
  reconciliation : Value
  artifacts : List CaptureReceiptArtifact

instance : Serde CaptureInterruptionSchema :=
  Serde.ofNames (fun | .v1 => "capture-interruption/1") [.v1] (by intro a; cases a; rfl)

instance : Serde CaptureInterruptionStatus :=
  Serde.ofNames (fun | .interrupted => "interrupted") [.interrupted] (by intro a; cases a; rfl)

instance : Serde CaptureInterruptionReason :=
  Serde.ofNames (fun | .freshProcessRecovery => "fresh-process-recovery") [.freshProcessRecovery]
    (by intro a; cases a; rfl)

instance : Serde CaptureSessionStatus :=
  Serde.ofNames
    (fun
      | .incomplete => "incomplete"
      | .complete => "complete"
      | .failed => "failed"
      | .abandoned => "abandoned")
    [.incomplete, .complete, .failed, .abandoned] (by intro a; cases a <;> decide)

instance : Serde CaptureReceiptArtifact where
  toValue a := .object
    [("name", Serde.toValue a.name), ("bytes", Serde.toValue a.bytes),
      ("sha256", Serde.toValue a.sha256), ("mode", Serde.toValue a.mode)]
  fromValue v := do
    let fs ← closedFields ["name", "bytes", "sha256", "mode"] v
    return {
      name := ← requiredField fs "name"
      bytes := ← requiredField fs "bytes"
      sha256 := ← requiredField fs "sha256"
      mode := ← requiredField fs "mode" }
  fromValue_toValue a := by
    refine (closedFields_bind rfl).trans ?_
    repeat refine (requiredField_bind rfl).trans ?_
    rfl
  plain_toValue a := Value.plain_object (by simp [Value.plainFields]) rfl
  toValue_ne_null a := by simp

instance : Serde CaptureInterruptionReceipt where
  toValue r := .object
    [("schema", Serde.toValue r.schema), ("status", Serde.toValue r.status),
      ("reason", Serde.toValue r.reason), ("meeting_id", Serde.toValue r.meetingId),
      ("artifacts", Serde.toValue r.artifacts)]
  fromValue v := do
    let fs ← closedFields ["schema", "status", "reason", "meeting_id", "artifacts"] v
    return {
      schema := ← requiredField fs "schema"
      status := ← requiredField fs "status"
      reason := ← requiredField fs "reason"
      meetingId := ← requiredField fs "meeting_id"
      artifacts := ← requiredField fs "artifacts" }
  fromValue_toValue r := by
    refine (closedFields_bind rfl).trans ?_
    repeat refine (requiredField_bind rfl).trans ?_
    rfl
  plain_toValue r := Value.plain_object (by simp [Value.plainFields]) rfl
  toValue_ne_null r := by simp

/-- The reading of a `capture-session/2` receipt: a closed record of which
`quality`, `microphone` and `pauses` may be missing. -/
def CaptureSessionReceipt.fromValue (v : Value) : Option CaptureSessionReceipt := do
  let fs ← closedFields ["schema", "status", "started_at", "finalized_at", "health", "quality",
    "microphone", "pauses", "reconciliation", "artifacts"] v
  let schema ← requiredField (α := String) fs "schema"
  guard (schema = "capture-session/2")
  return {
    status := ← requiredField fs "status"
    startedAt := ← fieldOf fs "started_at"
    finalizedAt := ← fieldOf fs "finalized_at"
    health := ← fieldOf fs "health"
    reconciliation := ← fieldOf fs "reconciliation"
    artifacts := ← requiredField fs "artifacts" }

def audioReferences (meeting : MeetingRecord) : List ArtifactRef :=
  [meeting.artifacts.microphoneAudio, meeting.artifacts.systemAudio].filterMap id

/-- The last component of a relative path. -/
def fileName (path : String) : String := String.ofList ((path.toList.splitOn '/').getLastD [])

/-- The entry of one track; its length is looked up only while the file is live. -/
def receiptArtifact (read : Reader B) (inspectLiveFiles : Bool) (reference : ArtifactRef) :
    Except MeetingError CaptureReceiptArtifact := do
  let bytes ←
    if inspectLiveFiles then do
      verifyArtifactRef read reference
      let contents ← read reference.relativePath
      pure (UInt64.ofNat (ByteString.size contents))
    else pure 0
  return { name := fileName reference.relativePath, bytes, sha256 := reference.sha256, mode := "0600" }

def receiptArtifacts (read : Reader B) (meeting : MeetingRecord) (inspectLiveFiles : Bool) :
    Except MeetingError (List CaptureReceiptArtifact) := do
  let artifacts ← (audioReferences meeting).mapM (receiptArtifact read inspectLiveFiles)
  return artifacts.insertionSort fun left right => left.name ≤ right.name

def receiptArtifactsMatch (actual expected : List CaptureReceiptArtifact) (compareBytes : Bool) :
    Bool :=
  actual.length == expected.length &&
    (actual.zip expected).all fun (actual, expected) =>
      actual.name == expected.name && actual.sha256 == expected.sha256 &&
        actual.mode == expected.mode && decide (actual.bytes ≥ 44) &&
        (!compareBytes || actual.bytes == expected.bytes)

/-- The receipt of an interrupted capture and of a complete one name the tracks
in the same way. -/
def capturedArtifacts (meeting : MeetingRecord) (references : List ArtifactRef) (schema : String)
    (value : Value) : Except MeetingError (List CaptureReceiptArtifact) :=
  match schema with
  | "capture-interruption/1" => do
    let receipt ← orRefuse (Serde.fromValue value : Option CaptureInterruptionReceipt) .json
    refuseIf (receipt.meetingId ≠ meeting.meetingId) .artifactMismatch
    return receipt.artifacts
  | "capture-session/2" => do
    let receipt ← orRefuse (CaptureSessionReceipt.fromValue value) .json
    refuseIf (receipt.status ≠ .complete ∨ ¬ receipt.startedAt.isString ∨
        ¬ receipt.finalizedAt.isString ∨ ¬ receipt.health.isObject ∨
        ¬ receipt.reconciliation.isObject ∨
        references.any fun reference => reference.relativePath.startsWith "capture/.")
      (.malformed "capture session is not a complete canonical acquisition")
    return receipt.artifacts
  | _ => .error (.malformed "capture receipt schema is not recognized")

/-- `verify_recovered_capture_receipt`. -/
def verifyRecoveredCaptureReceipt (read : Reader B) (meeting : MeetingRecord) :
    Except MeetingError Unit := do
  let references := audioReferences meeting
  match meeting.artifacts.captureSession with
  | none =>
    refuseIf (references ≠ []) (.malformed "interrupted audio lacks its capture receipt")
  | some session => do
    refuseIf (references = []) (.malformed "interruption receipt has no retained audio")
    verifyArtifactRef read session
    let bytes ← readBounded read session.relativePath maxReceiptBytes
    let value ← orRefuse (valueFromSlice bytes) .json
    let schema ← orRefuse ((value.get "schema").bind Value.asStr)
      (.malformed "capture receipt lacks a schema")
    let inspectLiveFiles := decide (meeting.retention.state = .retained)
    let expected ← receiptArtifacts read meeting inspectLiveFiles
    let actual ← capturedArtifacts meeting references schema value
    refuseIf (¬ receiptArtifactsMatch actual expected inspectLiveFiles) .artifactMismatch

/-! ## The record and what it points to -/

/-- `load_meeting` once the meeting directory is known to be private. -/
def loadMeeting (read : Reader B) (directoryId : String) : Except MeetingError MeetingRecord := do
  let bytes ← readBounded read "meeting.json" maxMeetingRecordBytes
  let meeting ← orRefuse (fromSlice bytes : Option MeetingRecord) .json
  meeting.validate B directoryId
  return meeting

def verifyRecordStaticArtifacts (read : Reader B) (meeting : MeetingRecord) :
    Except MeetingError Unit := do
  verifyArtifactRef read meeting.artifacts.attempt
  checkSome meeting.artifacts.ownership (verifyArtifactRef read)
  checkSome meeting.artifacts.captureSession (verifyArtifactRef read)
  if meeting.lifecycle = .recoveredInterrupted then
    verifyRecoveredCaptureReceipt read meeting
  checkSome meeting.artifacts.currentTranscript (verifyArtifactRef read)
  checkSome meeting.artifacts.currentNote fun note => do
    verifyArtifactRef read note.json
    verifyArtifactRef read note.markdown

/-- `verify_record_artifacts`. -/
def verifyRecordArtifacts (read : Reader B) (meeting : MeetingRecord) :
    Except MeetingError Unit := do
  verifyRecordStaticArtifacts read meeting
  if meeting.retention.state = .retained then
    (audioReferences meeting).forM (verifyArtifactRef read)
  checkSome meeting.retention.deletionReceipt (verifyArtifactRef read)

/-- The check and the bytes of `write_meeting`; `durable_replace` then puts them
in place of the record. -/
def meetingBytes (meeting : MeetingRecord) (directoryId : String) : Except MeetingError B := do
  meeting.validate B directoryId
  return toVecPretty meeting

end Readers

end YawnApp.SessionCore
