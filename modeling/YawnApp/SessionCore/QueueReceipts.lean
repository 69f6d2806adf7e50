import YawnApp.SessionCore.MeetingDirectory

set_option autoImplicit false

/-!
# The receipts of the transcription queue (`transcription_queue.rs`)

A request for a transcript collects immutable receipts: the request itself, a
claim and its release for each worker that took it, a result, and at the end a
commit or a terminal receipt.  This module has the receipts and their JSON
forms.
-/

namespace YawnApp.SessionCore

open YawnApp.Foundation List

/-! ## Receipts -/

inductive TranscriptionRequestSchema where
  | v1
deriving DecidableEq, Repr

/-- The engine a capture was bound to when it entered the queue. -/
inductive TranscriptionProducer where
  | whisper (modelIdentity : String)
  | appleNative (locale helperSha256 assetIdentity osVersion : String)
deriving DecidableEq, Repr

structure TranscriptionRequest where
  schema : TranscriptionRequestSchema
  requestId : Uuid
  meetingId : String
  captureSessionSha256 : String
  microphoneAudioSha256 : String
  systemAudioSha256 : String
  modelIdentity : String
  /-- Requests written before there was a choice of engines have none. -/
  producer : Option TranscriptionProducer
  workerRuntimeIdentity : String
  enqueuedAtEpochSeconds : UInt64
deriving DecidableEq

inductive TranscriptionClaimSchema where
  | v1
deriving DecidableEq, Repr

structure TranscriptionClaim where
  schema : TranscriptionClaimSchema
  requestId : Uuid
  claimId : Uuid
  workerRuntimeIdentity : String
  claimedAtEpochSeconds : UInt64
deriving DecidableEq

inductive TranscriptionClaimReleaseSchema where
  | v1
deriving DecidableEq, Repr

structure TranscriptionClaimRelease where
  schema : TranscriptionClaimReleaseSchema
  requestId : Uuid
  claimId : Uuid
  releasedAtEpochSeconds : UInt64
deriving DecidableEq

inductive TranscriptionResultSchema where
  | v1
deriving DecidableEq, Repr

structure TranscriptionResult where
  schema : TranscriptionResultSchema
  requestId : Uuid
  meetingId : String
  transcript : ArtifactRef
  resultSha256 : String
  producedAtEpochSeconds : UInt64
deriving DecidableEq

inductive TranscriptionTerminalSchema where
  | v1
deriving DecidableEq, Repr

inductive TranscriptionTerminalKind where
  | failed
  | quarantined
deriving DecidableEq, Repr

structure TranscriptionTerminal where
  schema : TranscriptionTerminalSchema
  requestId : Uuid
  kind : TranscriptionTerminalKind
  atEpochSeconds : UInt64
deriving DecidableEq

inductive TranscriptionCommitSchema where
  | v1
deriving DecidableEq, Repr

structure TranscriptionCommit where
  schema : TranscriptionCommitSchema
  requestId : Uuid
  meetingId : String
  resultSha256 : String
  committedMeetingSha256 : String
  committedAtEpochSeconds : UInt64
deriving DecidableEq

structure TranscriptionQueueItem where
  request : TranscriptionRequest
  claim : Option TranscriptionClaim
  result : Option TranscriptionResult
  terminal : Option TranscriptionTerminal
  commit : Option TranscriptionCommit
deriving DecidableEq

structure QueueDiscovery where
  items : List TranscriptionQueueItem
  orphanCapturedMeetings : List String
deriving DecidableEq

inductive TranscriptionQueueError where
  | invalidPrivateStorage
  | malformed (detail : String)
  | conflictingRequest
  | sourceChanged
  | alreadyClaimed
  | missingResult
  | terminal
  | ineligibleMeeting
  | io (kind : IoError)
  | json
  | meeting (error : MeetingError)
deriving DecidableEq, Repr

/-! ### JSON forms -/

instance : Serde TranscriptionRequestSchema :=
  Serde.ofNames (fun | .v1 => "transcription-request/1") [.v1] (by intro a; cases a; rfl)

instance : Serde TranscriptionClaimSchema :=
  Serde.ofNames (fun | .v1 => "transcription-claim/1") [.v1] (by intro a; cases a; rfl)

instance : Serde TranscriptionClaimReleaseSchema :=
  Serde.ofNames (fun | .v1 => "transcription-claim-release/1") [.v1] (by intro a; cases a; rfl)

instance : Serde TranscriptionResultSchema :=
  Serde.ofNames (fun | .v1 => "transcription-result/1") [.v1] (by intro a; cases a; rfl)

instance : Serde TranscriptionTerminalSchema :=
  Serde.ofNames (fun | .v1 => "transcription-terminal/1") [.v1] (by intro a; cases a; rfl)

instance : Serde TranscriptionCommitSchema :=
  Serde.ofNames (fun | .v1 => "transcription-commit/1") [.v1] (by intro a; cases a; rfl)

instance : Serde TranscriptionTerminalKind :=
  Serde.ofNames (fun | .failed => "failed" | .quarantined => "quarantined") [.failed, .quarantined]
    (by intro a; cases a <;> decide)

def TranscriptionProducer.toValue : TranscriptionProducer → Value
  | .whisper modelIdentity =>
    .object [("engine", .string "whisper"), ("model_identity", Serde.toValue modelIdentity)]
  | .appleNative locale helperSha256 assetIdentity osVersion =>
    .object [("engine", .string "apple-native"), ("locale", Serde.toValue locale),
      ("helper_sha256", Serde.toValue helperSha256),
      ("asset_identity", Serde.toValue assetIdentity), ("os_version", Serde.toValue osVersion)]

/-- The producer is an internally tagged enumeration: the field `engine` says
which other fields there must be. -/
def TranscriptionProducer.fromValue (v : Value) : Option TranscriptionProducer :=
  match (v.get "engine").bind Value.asStr with
  | some "whisper" => do
    let fs ← closedFields ["engine", "model_identity"] v
    return .whisper (← requiredField fs "model_identity")
  | some "apple-native" => do
    let fs ← closedFields ["engine", "locale", "helper_sha256", "asset_identity", "os_version"] v
    return .appleNative (← requiredField fs "locale") (← requiredField fs "helper_sha256")
      (← requiredField fs "asset_identity") (← requiredField fs "os_version")
  | _ => none

instance : Serde TranscriptionProducer where
  toValue := TranscriptionProducer.toValue
  fromValue := TranscriptionProducer.fromValue
  fromValue_toValue producer := by
    cases producer with
    | whisper | appleNative =>
      simp [TranscriptionProducer.fromValue, TranscriptionProducer.toValue, Value.get, Value.asStr,
        closedFields, requiredField, fieldOf]
  plain_toValue producer := by
    cases producer <;> simp [TranscriptionProducer.toValue, Value.plain, Value.plainFields]
  toValue_ne_null producer := by cases producer <;> simp [TranscriptionProducer.toValue]

instance : Serde TranscriptionRequest where
  toValue r := .object
    [("schema", Serde.toValue r.schema), ("request_id", Serde.toValue r.requestId),
      ("meeting_id", Serde.toValue r.meetingId),
      ("capture_session_sha256", Serde.toValue r.captureSessionSha256),
      ("microphone_audio_sha256", Serde.toValue r.microphoneAudioSha256),
      ("system_audio_sha256", Serde.toValue r.systemAudioSha256),
      ("model_identity", Serde.toValue r.modelIdentity), ("producer", nullable r.producer),
      ("worker_runtime_identity", Serde.toValue r.workerRuntimeIdentity),
      ("enqueued_at_epoch_seconds", Serde.toValue r.enqueuedAtEpochSeconds)]
  fromValue v := do
    let fs ← closedFields ["schema", "request_id", "meeting_id", "capture_session_sha256",
      "microphone_audio_sha256", "system_audio_sha256", "model_identity", "producer",
      "worker_runtime_identity", "enqueued_at_epoch_seconds"] v
    return {
      schema := ← requiredField fs "schema"
      requestId := ← requiredField fs "request_id"
      meetingId := ← requiredField fs "meeting_id"
      captureSessionSha256 := ← requiredField fs "capture_session_sha256"
      microphoneAudioSha256 := ← requiredField fs "microphone_audio_sha256"
      systemAudioSha256 := ← requiredField fs "system_audio_sha256"
      modelIdentity := ← requiredField fs "model_identity"
      producer := ← optionalField fs "producer"
      workerRuntimeIdentity := ← requiredField fs "worker_runtime_identity"
      enqueuedAtEpochSeconds := ← requiredField fs "enqueued_at_epoch_seconds" }
  fromValue_toValue r := by
    refine (closedFields_bind rfl).trans ?_
    repeat first
      | refine (requiredField_bind rfl).trans ?_
      | refine (optionalField_bind rfl).trans ?_
    rfl
  plain_toValue r := Value.plain_object (by simp [Value.plainFields]) rfl
  toValue_ne_null r := by simp

instance : Serde TranscriptionClaim where
  toValue c := .object
    [("schema", Serde.toValue c.schema), ("request_id", Serde.toValue c.requestId),
      ("claim_id", Serde.toValue c.claimId),
      ("worker_runtime_identity", Serde.toValue c.workerRuntimeIdentity),
      ("claimed_at_epoch_seconds", Serde.toValue c.claimedAtEpochSeconds)]
  fromValue v := do
    let fs ← closedFields ["schema", "request_id", "claim_id", "worker_runtime_identity",
      "claimed_at_epoch_seconds"] v
    return {
      schema := ← requiredField fs "schema"
      requestId := ← requiredField fs "request_id"
      claimId := ← requiredField fs "claim_id"
      workerRuntimeIdentity := ← requiredField fs "worker_runtime_identity"
      claimedAtEpochSeconds := ← requiredField fs "claimed_at_epoch_seconds" }
  fromValue_toValue c := by
    refine (closedFields_bind rfl).trans ?_
    repeat refine (requiredField_bind rfl).trans ?_
    rfl
  plain_toValue c := Value.plain_object (by simp [Value.plainFields]) rfl
  toValue_ne_null c := by simp

instance : Serde TranscriptionClaimRelease where
  toValue c := .object
    [("schema", Serde.toValue c.schema), ("request_id", Serde.toValue c.requestId),
      ("claim_id", Serde.toValue c.claimId),
      ("released_at_epoch_seconds", Serde.toValue c.releasedAtEpochSeconds)]
  fromValue v := do
    let fs ← closedFields ["schema", "request_id", "claim_id", "released_at_epoch_seconds"] v
    return {
      schema := ← requiredField fs "schema"
      requestId := ← requiredField fs "request_id"
      claimId := ← requiredField fs "claim_id"
      releasedAtEpochSeconds := ← requiredField fs "released_at_epoch_seconds" }
  fromValue_toValue c := by
    refine (closedFields_bind rfl).trans ?_
    repeat refine (requiredField_bind rfl).trans ?_
    rfl
  plain_toValue c := Value.plain_object (by simp [Value.plainFields]) rfl
  toValue_ne_null c := by simp

instance : Serde TranscriptionResult where
  toValue r := .object
    [("schema", Serde.toValue r.schema), ("request_id", Serde.toValue r.requestId),
      ("meeting_id", Serde.toValue r.meetingId), ("transcript", Serde.toValue r.transcript),
      ("result_sha256", Serde.toValue r.resultSha256),
      ("produced_at_epoch_seconds", Serde.toValue r.producedAtEpochSeconds)]
  fromValue v := do
    let fs ← closedFields ["schema", "request_id", "meeting_id", "transcript", "result_sha256",
      "produced_at_epoch_seconds"] v
    return {
      schema := ← requiredField fs "schema"
      requestId := ← requiredField fs "request_id"
      meetingId := ← requiredField fs "meeting_id"
      transcript := ← requiredField fs "transcript"
      resultSha256 := ← requiredField fs "result_sha256"
      producedAtEpochSeconds := ← requiredField fs "produced_at_epoch_seconds" }
  fromValue_toValue r := by
    refine (closedFields_bind rfl).trans ?_
    repeat refine (requiredField_bind rfl).trans ?_
    rfl
  plain_toValue r := Value.plain_object (by simp [Value.plainFields]) rfl
  toValue_ne_null r := by simp

instance : Serde TranscriptionTerminal where
  toValue t := .object
    [("schema", Serde.toValue t.schema), ("request_id", Serde.toValue t.requestId),
      ("kind", Serde.toValue t.kind), ("at_epoch_seconds", Serde.toValue t.atEpochSeconds)]
  fromValue v := do
    let fs ← closedFields ["schema", "request_id", "kind", "at_epoch_seconds"] v
    return {
      schema := ← requiredField fs "schema"
      requestId := ← requiredField fs "request_id"
      kind := ← requiredField fs "kind"
      atEpochSeconds := ← requiredField fs "at_epoch_seconds" }
  fromValue_toValue t := by
    refine (closedFields_bind rfl).trans ?_
    repeat refine (requiredField_bind rfl).trans ?_
    rfl
  plain_toValue t := Value.plain_object (by simp [Value.plainFields]) rfl
  toValue_ne_null t := by simp

instance : Serde TranscriptionCommit where
  toValue c := .object
    [("schema", Serde.toValue c.schema), ("request_id", Serde.toValue c.requestId),
      ("meeting_id", Serde.toValue c.meetingId), ("result_sha256", Serde.toValue c.resultSha256),
      ("committed_meeting_sha256", Serde.toValue c.committedMeetingSha256),
      ("committed_at_epoch_seconds", Serde.toValue c.committedAtEpochSeconds)]
  fromValue v := do
    let fs ← closedFields ["schema", "request_id", "meeting_id", "result_sha256",
      "committed_meeting_sha256", "committed_at_epoch_seconds"] v
    return {
      schema := ← requiredField fs "schema"
      requestId := ← requiredField fs "request_id"
      meetingId := ← requiredField fs "meeting_id"
      resultSha256 := ← requiredField fs "result_sha256"
      committedMeetingSha256 := ← requiredField fs "committed_meeting_sha256"
      committedAtEpochSeconds := ← requiredField fs "committed_at_epoch_seconds" }
  fromValue_toValue c := by
    refine (closedFields_bind rfl).trans ?_
    repeat refine (requiredField_bind rfl).trans ?_
    rfl
  plain_toValue c := Value.plain_object (by simp [Value.plainFields]) rfl
  toValue_ne_null c := by simp

/-! ## What always fits

A request is as long as its identities, and a result as the path of its
transcript.  The other receipts are bounded by what is in them. -/

def maxQueueReceiptBytes : Nat := 256 * 1024

theorem TranscriptionClaim.prettySize_le {c : TranscriptionClaim}
    (h : c.workerRuntimeIdentity.utf8ByteSize ≤ 256) : (Serde.toValue c).prettySize 0 ≤ 3000 := by
  have hschema : (Serde.toValue c.schema).prettySize 1 ≤ 40 := by
    cases c.schema
    decide
  have hidentity := Value.textSize_le_six c.workerRuntimeIdentity
  have htime := prettySize_uint64_le c.claimedAtEpochSeconds 1
  refine (Value.prettySize_record_le ["schema", "request_id", "claim_id", "worker_runtime_identity",
    "claimed_at_epoch_seconds"] 100 2000 rfl (by decide) ?_).trans ?_
  · simp only [map_cons, map_nil, sum_cons, sum_nil, Nat.zero_add,
      prettySize_uuid, prettySize_string]
    omega
  · simp only [length_cons, length_nil]
    omega

theorem TranscriptionClaimRelease.prettySize_le (r : TranscriptionClaimRelease) :
    (Serde.toValue r).prettySize 0 ≤ 1000 := by
  have hschema : (Serde.toValue r.schema).prettySize 1 ≤ 40 := by
    cases r.schema
    decide
  have htime := prettySize_uint64_le r.releasedAtEpochSeconds 1
  refine (Value.prettySize_record_le ["schema", "request_id", "claim_id",
    "released_at_epoch_seconds"] 100 500 rfl (by decide) ?_).trans ?_
  · simp only [map_cons, map_nil, sum_cons, sum_nil, Nat.zero_add,
      prettySize_uuid]
    omega
  · simp only [length_cons, length_nil]
    omega

theorem TranscriptionTerminal.prettySize_le (t : TranscriptionTerminal) :
    (Serde.toValue t).prettySize 0 ≤ 1000 := by
  have hschema : (Serde.toValue t.schema).prettySize 1 ≤ 40 := by
    cases t.schema
    decide
  have hkind : (Serde.toValue t.kind).prettySize 1 ≤ 40 := by
    cases t.kind <;> decide
  have htime := prettySize_uint64_le t.atEpochSeconds 1
  refine (Value.prettySize_record_le ["schema", "request_id", "kind", "at_epoch_seconds"] 100 500
    rfl (by decide) ?_).trans ?_
  · simp only [map_cons, map_nil, sum_cons, sum_nil, Nat.zero_add,
      prettySize_uuid]
    omega
  · simp only [length_cons, length_nil]
    omega

theorem TranscriptionCommit.prettySize_le {c : TranscriptionCommit}
    (hmeeting : validOpaqueId c.meetingId = true) (hresult : validSha256 c.resultSha256 = true)
    (hrecord : validSha256 c.committedMeetingSha256 = true) :
    (Serde.toValue c).prettySize 0 ≤ 2000 := by
  have hschema : (Serde.toValue c.schema).prettySize 1 ≤ 40 := by
    cases c.schema
    decide
  have hid := textSize_of_validOpaqueId hmeeting
  have htime := prettySize_uint64_le c.committedAtEpochSeconds 1
  refine (Value.prettySize_record_le ["schema", "request_id", "meeting_id", "result_sha256",
    "committed_meeting_sha256", "committed_at_epoch_seconds"] 150 1000 rfl (by decide) ?_).trans ?_
  · simp only [map_cons, map_nil, sum_cons, sum_nil, Nat.zero_add,
      prettySize_uuid, prettySize_string, textSize_of_validSha256 hresult,
      textSize_of_validSha256 hrecord]
    omega
  · simp only [length_cons, length_nil]
    omega

section Fits

variable {B : Type} [Platform B]

/-- A receipt that is read back: its text is within the bound. -/
def Fits (B : Type) [Platform B] {α : Type} [Serde α] (a : α) : Prop :=
  ByteString.size (toVecPretty a : B) ≤ maxQueueReceiptBytes

instance {α : Type} [Serde α] (a : α) : Decidable (Fits B a) :=
  inferInstanceAs (Decidable (_ ≤ _))

theorem TranscriptionClaim.fits {c : TranscriptionClaim}
    (h : c.workerRuntimeIdentity.utf8ByteSize ≤ 256) : Fits B c :=
  (size_toVecPretty c).trans_le ((c.prettySize_le h).trans (by decide))

theorem TranscriptionClaimRelease.fits (r : TranscriptionClaimRelease) : Fits B r :=
  (size_toVecPretty r).trans_le (r.prettySize_le.trans (by decide))

theorem TranscriptionTerminal.fits (t : TranscriptionTerminal) : Fits B t :=
  (size_toVecPretty t).trans_le (t.prettySize_le.trans (by decide))

theorem TranscriptionCommit.fits {c : TranscriptionCommit}
    (hmeeting : validOpaqueId c.meetingId = true) (hresult : validSha256 c.resultSha256 = true)
    (hrecord : validSha256 c.committedMeetingSha256 = true) : Fits B c :=
  (size_toVecPretty c).trans_le ((c.prettySize_le hmeeting hresult hrecord).trans (by decide))

/-- A request with too long a model identity is not read back. -/
theorem TranscriptionRequest.not_fits {r : TranscriptionRequest}
    (h : maxQueueReceiptBytes < Value.textSize r.modelIdentity) : ¬ Fits B r := by
  have hmem : ("model_identity", Serde.toValue r.modelIdentity) ∈
      [("schema", Serde.toValue r.schema), ("request_id", Serde.toValue r.requestId),
        ("meeting_id", Serde.toValue r.meetingId),
        ("capture_session_sha256", Serde.toValue r.captureSessionSha256),
        ("microphone_audio_sha256", Serde.toValue r.microphoneAudioSha256),
        ("system_audio_sha256", Serde.toValue r.systemAudioSha256),
        ("model_identity", Serde.toValue r.modelIdentity), ("producer", nullable r.producer),
        ("worker_runtime_identity", Serde.toValue r.workerRuntimeIdentity),
        ("enqueued_at_epoch_seconds", Serde.toValue r.enqueuedAtEpochSeconds)] := by simp
  have hfield : (Serde.toValue r.modelIdentity).prettySize 1 ≤ (Serde.toValue r).prettySize 0 :=
    Value.prettySize_le_of_field hmem
  rw [prettySize_string] at hfield
  unfold Fits
  rw [size_toVecPretty]
  omega

end Fits

end YawnApp.SessionCore
