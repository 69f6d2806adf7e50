import YawnApp.SessionCore.Text

set_option autoImplicit false

/-!
# The meeting record (`meeting.rs`)

A meeting is a directory below `meetings/`, and what the app believes about it
is the record `meeting.json` in that directory: where the take stands in its
life, which audio it still owns, and which transcript and note are current.
This module has the record, its JSON form and `MeetingRecord::validate`, the
check every reader makes before it believes a record and every writer makes
before it publishes one.
-/

namespace YawnApp.SessionCore

open YawnApp.Foundation

/-! ## The record -/

inductive MeetingSchema where
  | v2
deriving DecidableEq, Repr, Inhabited

inductive MeetingLifecycle where
  | incomplete
  | captured
  | transcriptReady
  | transcriptionFailed
  | summaryFailed
  | ready
  | recoveredInterrupted
deriving DecidableEq, Repr, Inhabited

inductive AudioRetentionRule where
  | deleteAfter (seconds : UInt64)
  | untilManualDeletion
deriving DecidableEq, Repr

inductive AudioState where
  | neverCreated
  | retained
  | deleting
  | released
deriving DecidableEq, Repr, Inhabited

/-- A file below the meeting directory, with the digest it must have. -/
structure ArtifactRef where
  relativePath : String
  sha256 : String
deriving DecidableEq, Repr, Inhabited

structure NoteRevisionRef where
  json : ArtifactRef
  markdown : ArtifactRef
  sourceTranscriptSha256 : String
deriving DecidableEq, Repr, Inhabited

inductive PendingStorageOperation where
  | audioDeletionV1
  /-- The transcript and every generated note are being removed, while the
  capture evidence stays with the meeting. -/
  | transcriptDeletionV1
deriving DecidableEq, Repr

structure AudioRetention where
  rule : AudioRetentionRule
  policySha256 : String
  nextDeletionAtEpochSeconds : Option UInt64
  state : AudioState
  deletionReceipt : Option ArtifactRef
deriving DecidableEq, Repr

structure MeetingArtifacts where
  attempt : ArtifactRef
  ownership : Option ArtifactRef
  captureSession : Option ArtifactRef
  microphoneAudio : Option ArtifactRef
  systemAudio : Option ArtifactRef
  currentTranscript : Option ArtifactRef
  currentNote : Option NoteRevisionRef
deriving DecidableEq, Repr

structure MeetingRecord where
  schema : MeetingSchema
  meetingId : String
  lifecycle : MeetingLifecycle
  retention : AudioRetention
  artifacts : MeetingArtifacts
  pendingStorageOperation : Option PendingStorageOperation
deriving DecidableEq, Repr

inductive MeetingError where
  | malformed (detail : String)
  | artifactMismatch
  | invalidPrivateStorage
  | io (kind : IoError)
  | json
deriving DecidableEq, Repr

/-! ## Sizes and paths -/

def maxMeetingRecordBytes : Nat := 256 * 1024

def maxReceiptBytes : Nat := 256 * 1024

def microphoneAudioPath : String := "capture/mic.wav"

def systemAudioPath : String := "capture/system.wav"

def microphonePartialAudioPath : String := "capture/.mic.wav.partial"

def systemPartialAudioPath : String := "capture/.system.wav.partial"

/-! ## Reading private storage -/

section PrivateStorage

variable {P B : Type} [DecidableEq P]

/-- The permission bits of a mode. -/
def permissions (mode : Nat) : Nat := mode &&& 0o777

/-- `require_private_directory`. -/
def requirePrivateDirectory (v : Volume P B) (p : P) : Except MeetingError Unit :=
  match v.node p with
  | none => .error (.io .notFound)
  | some (.directory mode) => refuseIf (permissions mode ≠ 0o700) .invalidPrivateStorage
  | some _ => .error .invalidPrivateStorage

/-- `open_private_file`, followed by the read: a symbolic link is not followed,
and the mode must be 0600. -/
def openPrivateFile (v : Volume P B) (p : P) : Except MeetingError B :=
  match v.node p with
  | none => .error (.io .notFound)
  | some (.file mode bytes) => do
    refuseIf (permissions mode ≠ 0o600) .invalidPrivateStorage
    return bytes
  | some .symlink => .error (.io .other)
  | some (.directory _) => .error .invalidPrivateStorage

/-- `read_private_bytes`. -/
def readPrivateBytes [ByteString B] (v : Volume P B) (p : P) (maximum : Nat) :
    Except MeetingError B := do
  let bytes ← openPrivateFile v p
  refuseIf (ByteString.size bytes > maximum) .invalidPrivateStorage
  return bytes

variable {v : Volume P B}

theorem requirePrivateDirectory_eq_ok {p : P} : requirePrivateDirectory v p = .ok () ↔
      ∃ mode, v.node p = some (.directory mode) ∧ permissions mode = 0o700 := by
  unfold requirePrivateDirectory
  cases h : v.node p with
  | none => simp
  | some n =>
    cases n with
    | directory | file | symlink => simp

theorem requirePrivateDirectory_of_private {p : P} (h : v.node p = some (.directory 0o700)) :
    requirePrivateDirectory v p = .ok () :=
  requirePrivateDirectory_eq_ok.mpr ⟨_, h, rfl⟩

theorem readPrivateBytes_of_file [ByteString B] {p : P} {bytes : B} {maximum : Nat}
    (h : v.node p = some (.file 0o600 bytes)) (hsize : ByteString.size bytes ≤ maximum) :
    readPrivateBytes v p maximum = .ok bytes := by
  have hopen : openPrivateFile v p = .ok bytes := by
    unfold openPrivateFile
    rw [h]
    rfl
  unfold readPrivateBytes
  rw [hopen, ok_bind, refuseIf_of_not (Nat.not_lt.mpr hsize)]
  rfl

end PrivateStorage

/-! ## JSON forms -/

instance : Serde MeetingSchema :=
  Serde.ofNames (fun | .v2 => "meeting/2") [.v2] (by intro a; cases a; rfl)

def MeetingLifecycle.name : MeetingLifecycle → String
  | .incomplete => "incomplete"
  | .captured => "captured"
  | .transcriptReady => "transcript-ready"
  | .transcriptionFailed => "transcription-failed"
  | .summaryFailed => "summary-failed"
  | .ready => "ready"
  | .recoveredInterrupted => "recovered-interrupted"

instance : Serde MeetingLifecycle :=
  Serde.ofNames MeetingLifecycle.name
    [.incomplete, .captured, .transcriptReady, .transcriptionFailed, .summaryFailed, .ready,
      .recoveredInterrupted]
    (by intro a; cases a <;> decide)

def AudioState.name : AudioState → String
  | .neverCreated => "never-created"
  | .retained => "retained"
  | .deleting => "deleting"
  | .released => "released"

instance : Serde AudioState :=
  Serde.ofNames AudioState.name [.neverCreated, .retained, .deleting, .released]
    (by intro a; cases a <;> decide)

instance : Serde PendingStorageOperation :=
  Serde.ofNames
    (fun
      | .audioDeletionV1 => "audio-deletion/1"
      | .transcriptDeletionV1 => "transcript-deletion/1")
    [.audioDeletionV1, .transcriptDeletionV1] (by intro a; cases a <;> decide)

def AudioRetentionRule.toValue : AudioRetentionRule → Value
  | .deleteAfter seconds =>
    .object [("kind", .string "delete-after"), ("seconds", Serde.toValue seconds)]
  | .untilManualDeletion => .object [("kind", .string "until-manual-deletion")]

/-- The rule is an internally tagged enumeration: the field `kind` says which
other fields there must be. -/
def AudioRetentionRule.fromValue (v : Value) : Option AudioRetentionRule :=
  match (v.get "kind").bind Value.asStr with
  | some "delete-after" => do
    let fs ← closedFields ["kind", "seconds"] v
    return .deleteAfter (← requiredField fs "seconds")
  | some "until-manual-deletion" => do
    let _ ← closedFields ["kind"] v
    return .untilManualDeletion
  | _ => none

instance : Serde AudioRetentionRule where
  toValue := AudioRetentionRule.toValue
  fromValue := AudioRetentionRule.fromValue
  fromValue_toValue rule := by
    cases rule with
    | deleteAfter =>
      simp [AudioRetentionRule.fromValue, AudioRetentionRule.toValue, Value.get, Value.asStr,
        closedFields, requiredField, fieldOf]
    | untilManualDeletion => rfl
  plain_toValue rule := by
    cases rule <;> simp [AudioRetentionRule.toValue, Value.plain, Value.plainFields]
  toValue_ne_null rule := by cases rule <;> simp [AudioRetentionRule.toValue]

instance : Serde ArtifactRef where
  toValue r := .object
    [("relative_path", Serde.toValue r.relativePath), ("sha256", Serde.toValue r.sha256)]
  fromValue v := do
    let fs ← closedFields ["relative_path", "sha256"] v
    return { relativePath := ← requiredField fs "relative_path", sha256 := ← requiredField fs "sha256" }
  fromValue_toValue r := by
    refine (closedFields_bind rfl).trans ?_
    repeat refine (requiredField_bind rfl).trans ?_
    rfl
  plain_toValue r := Value.plain_object (by simp [Value.plainFields]) rfl
  toValue_ne_null r := by simp

instance : Serde NoteRevisionRef where
  toValue n := .object
    [("json", Serde.toValue n.json), ("markdown", Serde.toValue n.markdown),
      ("source_transcript_sha256", Serde.toValue n.sourceTranscriptSha256)]
  fromValue v := do
    let fs ← closedFields ["json", "markdown", "source_transcript_sha256"] v
    return {
      json := ← requiredField fs "json"
      markdown := ← requiredField fs "markdown"
      sourceTranscriptSha256 := ← requiredField fs "source_transcript_sha256" }
  fromValue_toValue n := by
    refine (closedFields_bind rfl).trans ?_
    repeat refine (requiredField_bind rfl).trans ?_
    rfl
  plain_toValue n := Value.plain_object (by simp [Value.plainFields]) rfl
  toValue_ne_null n := by simp

instance : Serde AudioRetention where
  toValue r := .object
    [("rule", Serde.toValue r.rule), ("policy_sha256", Serde.toValue r.policySha256),
      ("next_deletion_at_epoch_seconds", nullable r.nextDeletionAtEpochSeconds),
      ("state", Serde.toValue r.state), ("deletion_receipt", nullable r.deletionReceipt)]
  fromValue v := do
    let fs ← closedFields ["rule", "policy_sha256", "next_deletion_at_epoch_seconds", "state",
      "deletion_receipt"] v
    return {
      rule := ← requiredField fs "rule"
      policySha256 := ← requiredField fs "policy_sha256"
      nextDeletionAtEpochSeconds := ← optionalField fs "next_deletion_at_epoch_seconds"
      state := ← requiredField fs "state"
      deletionReceipt := ← optionalField fs "deletion_receipt" }
  fromValue_toValue r := by
    refine (closedFields_bind rfl).trans ?_
    repeat first
      | refine (requiredField_bind rfl).trans ?_
      | refine (optionalField_bind rfl).trans ?_
    rfl
  plain_toValue r := Value.plain_object (by simp [Value.plainFields]) rfl
  toValue_ne_null r := by simp

instance : Serde MeetingArtifacts where
  toValue a := .object
    [("attempt", Serde.toValue a.attempt), ("ownership", nullable a.ownership),
      ("capture_session", nullable a.captureSession),
      ("microphone_audio", nullable a.microphoneAudio),
      ("system_audio", nullable a.systemAudio),
      ("current_transcript", nullable a.currentTranscript),
      ("current_note", nullable a.currentNote)]
  fromValue v := do
    let fs ← closedFields ["attempt", "ownership", "capture_session", "microphone_audio",
      "system_audio", "current_transcript", "current_note"] v
    return {
      attempt := ← requiredField fs "attempt"
      ownership := ← optionalField fs "ownership"
      captureSession := ← optionalField fs "capture_session"
      microphoneAudio := ← optionalField fs "microphone_audio"
      systemAudio := ← optionalField fs "system_audio"
      currentTranscript := ← optionalField fs "current_transcript"
      currentNote := ← optionalField fs "current_note" }
  fromValue_toValue a := by
    refine (closedFields_bind rfl).trans ?_
    repeat first
      | refine (requiredField_bind rfl).trans ?_
      | refine (optionalField_bind rfl).trans ?_
    rfl
  plain_toValue a := Value.plain_object (by simp [Value.plainFields]) rfl
  toValue_ne_null a := by simp

instance : Serde MeetingRecord where
  toValue m := .object
    [("schema", Serde.toValue m.schema), ("meeting_id", Serde.toValue m.meetingId),
      ("lifecycle", Serde.toValue m.lifecycle), ("retention", Serde.toValue m.retention),
      ("artifacts", Serde.toValue m.artifacts),
      ("pending_storage_operation", nullable m.pendingStorageOperation)]
  fromValue v := do
    let fs ← closedFields ["schema", "meeting_id", "lifecycle", "retention", "artifacts",
      "pending_storage_operation"] v
    return {
      schema := ← requiredField fs "schema"
      meetingId := ← requiredField fs "meeting_id"
      lifecycle := ← requiredField fs "lifecycle"
      retention := ← requiredField fs "retention"
      artifacts := ← requiredField fs "artifacts"
      pendingStorageOperation := ← optionalField fs "pending_storage_operation" }
  fromValue_toValue m := by
    refine (closedFields_bind rfl).trans ?_
    repeat first
      | refine (requiredField_bind rfl).trans ?_
      | refine (optionalField_bind rfl).trans ?_
    rfl
  plain_toValue m := Value.plain_object (by simp [Value.plainFields]) rfl
  toValue_ne_null m := by simp

/-! ## References -/

def validateSha256 (value : String) : Except MeetingError Unit :=
  refuseIf (¬ validSha256 value) (.malformed "invalid sha256")

/-- `validate_ref`: an artifact that has one place in every meeting. -/
def validateRef (reference : ArtifactRef) (expectedPath : String) : Except MeetingError Unit := do
  refuseIf (reference.relativePath ≠ expectedPath)
    (.malformed "artifact path does not match its role")
  validateSha256 reference.sha256

/-- `validate_audio_ref`: audio keeps its partial name only in an interrupted
meeting. -/
def validateAudioRef (reference : ArtifactRef) (canonicalPath partialPath : String)
    (allowPartial : Bool) : Except MeetingError Unit := do
  refuseIf (¬ (reference.relativePath = canonicalPath ∨
      (allowPartial = true ∧ reference.relativePath = partialPath)))
    (.malformed "audio artifact path does not match its role")
  validateSha256 reference.sha256

/-- `validate_digest_named_ref`: an artifact whose name is its digest. -/
def ArtifactRef.validateDigestNamed (reference : ArtifactRef) (directory extension : String) :
    Except MeetingError Unit := do
  validateSha256 reference.sha256
  validateRef reference (directory ++ "/" ++ reference.sha256 ++ "." ++ extension)

def NoteRevisionRef.validate (note : NoteRevisionRef) : Except MeetingError Unit := do
  note.json.validateDigestNamed "notes" "json"
  note.markdown.validateDigestNamed "notes" "md"
  validateSha256 note.sourceTranscriptSha256

/-- `validate_interrupted_audio_family`: the two tracks of an interrupted take
are both promoted or neither is. -/
def validateInterruptedAudioFamily (artifacts : MeetingArtifacts) : Except MeetingError Unit := do
  let paths := [artifacts.microphoneAudio, artifacts.systemAudio].filterMap fun reference =>
    reference.map ArtifactRef.relativePath
  let canonicalCount :=
    (paths.filter fun path => path == microphoneAudioPath || path == systemAudioPath).length
  let partialCount :=
    (paths.filter fun path =>
      path == microphonePartialAudioPath || path == systemPartialAudioPath).length
  refuseIf (canonicalCount > 0 ∧ partialCount > 0)
    (.malformed "interrupted audio mixes final and partial names")
  refuseIf (canonicalCount = 1) (.malformed "final audio is not a complete promoted pair")

/-! ## `MeetingRecord::validate`

The source is one function.  Here each of its paragraphs is a definition, and
`MeetingRecord.validate` runs them in the source's order. -/

namespace MeetingArtifacts

def completeCapture (a : MeetingArtifacts) : Bool :=
  a.captureSession.isSome && a.microphoneAudio.isSome && a.systemAudio.isSome

def anyAudio (a : MeetingArtifacts) : Bool := a.microphoneAudio.isSome || a.systemAudio.isSome

def anyCapture (a : MeetingArtifacts) : Bool := a.captureSession.isSome || a.anyAudio

end MeetingArtifacts

namespace MeetingRecord

variable (B : Type) [Platform B]

/-- `retention_policy_sha256`. -/
def retentionPolicySha256 (rule : AudioRetentionRule) : String :=
  Platform.sha256 (Platform.toVec
    (.object [("schema", .string "audio-retention-policy/1"), ("rule", Serde.toValue rule)]) : B)

def validateIdentity (m : MeetingRecord) (directoryId : String) : Except MeetingError Unit :=
  refuseIf (¬ validOpaqueId directoryId ∨ m.meetingId ≠ directoryId)
    (.malformed "meeting identifier mismatch")

def validateRetentionRule (m : MeetingRecord) : Except MeetingError Unit := do
  refuseIf (m.retention.policySha256 ≠ retentionPolicySha256 B m.retention.rule)
    (.malformed "retention policy digest mismatch")
  match m.retention.rule with
  | .deleteAfter seconds =>
    refuseIf (seconds = 0 ∨ m.retention.nextDeletionAtEpochSeconds.isNone)
      (.malformed "invalid automatic retention rule")
  | .untilManualDeletion =>
    refuseIf m.retention.nextDeletionAtEpochSeconds.isSome
      (.malformed "manual retention has a deadline")

def validateReferences (m : MeetingRecord) : Except MeetingError Unit := do
  let recoveredInterruption := decide (m.lifecycle = .recoveredInterrupted)
  validateRef m.artifacts.attempt "attempt.json"
  checkSome m.artifacts.ownership fun ownership => validateRef ownership "ownership.json"
  checkSome m.artifacts.captureSession fun session => validateRef session "capture/session.json"
  checkSome m.artifacts.microphoneAudio fun mic =>
    validateAudioRef mic microphoneAudioPath microphonePartialAudioPath recoveredInterruption
  checkSome m.artifacts.systemAudio fun system =>
    validateAudioRef system systemAudioPath systemPartialAudioPath recoveredInterruption
  checkSome m.artifacts.currentTranscript fun transcript =>
    transcript.validateDigestNamed "transcript" "json"
  checkSome m.artifacts.currentNote NoteRevisionRef.validate

/-- What each lifecycle says about the artifacts the record points to. -/
def validateLifecycle (m : MeetingRecord) : Except MeetingError Unit :=
  let a := m.artifacts
  let transcript := a.currentTranscript.isSome
  let note := a.currentNote.isSome
  match m.lifecycle with
  | .incomplete =>
    refuseIf (a.anyCapture ∨ transcript ∨ note)
      (.malformed "incomplete meeting points to committed artifacts")
  | .captured | .transcriptionFailed =>
    refuseIf (¬ a.completeCapture ∨ transcript ∨ note ∨ a.ownership.isNone)
      (.malformed "invalid captured meeting artifacts")
  | .transcriptReady | .summaryFailed =>
    refuseIf (¬ a.completeCapture ∨ ¬ transcript ∨ note ∨ a.ownership.isNone)
      (.malformed "invalid transcript-ready artifacts")
  | .ready => do
    refuseIf (¬ a.completeCapture ∨ ¬ transcript ∨ ¬ note ∨ a.ownership.isNone)
      (.malformed "invalid ready meeting artifacts")
    refuseIf (a.currentNote.map NoteRevisionRef.sourceTranscriptSha256 ≠
        a.currentTranscript.map ArtifactRef.sha256)
      (.malformed "note binds another transcript")
  | .recoveredInterrupted => do
    refuseIf (transcript ∨ note) (.malformed "interrupted meeting points to derived artifacts")
    refuseIf (a.anyAudio ≠ a.captureSession.isSome)
      (.malformed "interrupted audio and its capture receipt disagree")
    validateInterruptedAudioFamily a

/-- What each audio state says about the audio and its deletion receipt. -/
def validateAudioState (m : MeetingRecord) : Except MeetingError Unit :=
  let anyAudio := m.artifacts.anyAudio
  let audioDeletionPending := m.pendingStorageOperation = some .audioDeletionV1
  match m.retention.state with
  | .neverCreated =>
    refuseIf (anyAudio ∨ m.retention.deletionReceipt.isSome ∨ m.pendingStorageOperation.isSome)
      (.malformed "invalid never-created audio state")
  | .retained =>
    refuseIf (¬ anyAudio ∨ m.retention.deletionReceipt.isSome ∨ audioDeletionPending)
      (.malformed "invalid retained audio state")
  | .deleting =>
    refuseIf (¬ anyAudio ∨ m.retention.deletionReceipt.isSome ∨ ¬ audioDeletionPending)
      (.malformed "invalid deleting audio state")
  | .released => do
    let receipt ← orRefuse m.retention.deletionReceipt (.malformed "released audio lacks a receipt")
    validateRef receipt "deletion/audio-deletion.json"
    refuseIf (¬ anyAudio ∨ audioDeletionPending) (.malformed "invalid released audio state")

/-- A transcript deletion shows only as a captured meeting without transcript
and note.  The source's refusal of an unknown pending operation cannot fire:
the enumeration has no third value. -/
def validatePending (m : MeetingRecord) : Except MeetingError Unit :=
  refuseIf (m.pendingStorageOperation = some .transcriptDeletionV1 ∧
      (m.lifecycle ≠ .captured ∨ m.artifacts.currentTranscript.isSome ∨
        m.artifacts.currentNote.isSome))
    (.malformed "invalid pending transcript deletion state")

def validateUnfinished (m : MeetingRecord) : Except MeetingError Unit := do
  refuseIf (m.lifecycle = .incomplete ∧ m.retention.state ≠ .neverCreated)
    (.malformed "incomplete meeting owns audio")
  if m.lifecycle = .recoveredInterrupted then
    refuseIf (m.artifacts.anyAudio ∧ m.retention.state = .neverCreated)
      (.malformed "partial audio is not retained")
    refuseIf (¬ m.artifacts.anyAudio ∧ m.retention.state ≠ .neverCreated)
      (.malformed "interrupted meeting has no audio")

/-- `MeetingRecord::validate`. -/
def validate (m : MeetingRecord) (directoryId : String) : Except MeetingError Unit := do
  m.validateIdentity directoryId
  m.validateRetentionRule B
  m.validateReferences
  m.validateLifecycle
  m.validateAudioState
  m.validatePending
  m.validateUnfinished

/-- The checks of `validate`, all passed. -/
structure Valid (m : MeetingRecord) (directoryId : String) : Prop where
  identity : m.validateIdentity directoryId = .ok ()
  retentionRule : m.validateRetentionRule B = .ok ()
  references : m.validateReferences = .ok ()
  lifecycle : m.validateLifecycle = .ok ()
  audioState : m.validateAudioState = .ok ()
  pending : m.validatePending = .ok ()
  unfinished : m.validateUnfinished = .ok ()

theorem validate_eq_ok (m : MeetingRecord) (directoryId : String) :
    m.validate B directoryId = .ok () ↔ Valid B m directoryId := by
  unfold validate
  simp only [check_bind_eq_ok]
  constructor
  · intro ⟨h1, h2, h3, h4, h5, h6, h7⟩
    exact ⟨h1, h2, h3, h4, h5, h6, h7⟩
  · intro h
    exact ⟨h.identity, h.retentionRule, h.references, h.lifecycle, h.audioState, h.pending,
      h.unfinished⟩

/-- The lifecycles of a meeting that has a transcript. -/
def HasTranscript (lifecycle : MeetingLifecycle) : Prop :=
  lifecycle = .ready ∨ lifecycle = .transcriptReady ∨ lifecycle = .summaryFailed

variable {B}

/-- A record with a transcript owns a complete capture. -/
theorem Valid.completeCapture {m : MeetingRecord} {directoryId : String}
    (h : m.Valid B directoryId) (hlifecycle : HasTranscript m.lifecycle) :
    m.artifacts.completeCapture = true ∧ ¬ m.artifacts.ownership.isNone := by
  have h := h.lifecycle
  unfold validateLifecycle at h
  rcases hlifecycle with hl | hl | hl <;> simp only [hl] at h
  · simp only [check_bind_eq_ok, refuseIf_eq_ok, not_or, not_not] at h
    obtain ⟨⟨hcomplete, -, -, hownership⟩, -⟩ := h
    exact ⟨hcomplete, hownership⟩
  · simp only [refuseIf_eq_ok, not_or, not_not] at h
    exact ⟨h.1, h.2.2.2⟩
  · simp only [refuseIf_eq_ok, not_or, not_not] at h
    exact ⟨h.1, h.2.2.2⟩

/-- A record with a transcript stays valid when its lifecycle, its transcript
and its note are replaced by ones that agree. -/
theorem Valid.derived {m : MeetingRecord} {directoryId : String} (h : m.Valid B directoryId)
    (hpending : m.pendingStorageOperation = none) (hold : HasTranscript m.lifecycle)
    {lifecycle : MeetingLifecycle} {transcript : Option ArtifactRef} {note : Option NoteRevisionRef}
    (hnew : HasTranscript lifecycle)
    (htranscript : checkSome transcript (fun r => r.validateDigestNamed "transcript" "json") = .ok ())
    (hnote : checkSome note NoteRevisionRef.validate = .ok ())
    (hagree : validateLifecycle { m with
      lifecycle
      artifacts := { m.artifacts with currentTranscript := transcript, currentNote := note } } =
        .ok ()) :
    Valid B { m with
      lifecycle
      artifacts := { m.artifacts with currentTranscript := transcript, currentNote := note } }
      directoryId := by
  have hold' : decide (m.lifecycle = .recoveredInterrupted) = false := by
    rcases hold with hl | hl | hl <;> rw [hl] <;> rfl
  have hnew' : decide (lifecycle = .recoveredInterrupted) = false := by
    rcases hnew with hl | hl | hl <;> rw [hl] <;> rfl
  refine ⟨h.identity, h.retentionRule, ?_, hagree, h.audioState, ?_, ?_⟩
  · have hreferences := h.references
    unfold validateReferences at hreferences ⊢
    simp only [hold', check_bind_eq_ok] at hreferences
    simp only [hnew', check_bind_eq_ok]
    obtain ⟨hattempt, hown, hsession, hmic, hsystem, -, -⟩ := hreferences
    exact ⟨hattempt, hown, hsession, hmic, hsystem, htranscript, hnote⟩
  · apply refuseIf_of_not
    intro hrefused
    rw [show ({ m with
      lifecycle
      artifacts := { m.artifacts with currentTranscript := transcript, currentNote := note } } :
        MeetingRecord).pendingStorageOperation = none from hpending] at hrefused
    simp at hrefused
  · have hincomplete : lifecycle ≠ .incomplete ∧ lifecycle ≠ .recoveredInterrupted := by
      rcases hnew with hl | hl | hl <;> rw [hl] <;> decide
    simp [validateUnfinished, hincomplete, refuseIf_of_not, pure, Except.pure]

end MeetingRecord

end YawnApp.SessionCore
