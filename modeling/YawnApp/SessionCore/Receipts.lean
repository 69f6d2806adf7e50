import Mathlib.Data.Finmap
import YawnApp.SessionCore.Meeting

set_option autoImplicit false

/-!
# The receipts of product operations (`operations.rs`, types)

A product operation restores one withheld turn of a transcript or generates a
note.  Its life is written down in three immutable receipts: the request, the
result the worker's artifacts add up to, and the commit that says which meeting
record published the result.  This module has the receipts, the transcript view
that a restoration produces and the arguments a caller passes, with their JSON
forms.  What makes them well formed is in `Operations`.
-/

namespace YawnApp.SessionCore

open YawnApp.Foundation

/-! ## Views, arguments and overlays -/

inductive TranscriptViewSchema where
  | v1
deriving DecidableEq, Repr, Inhabited

/-- A transcript revision that shows some withheld turns of its base. -/
structure TranscriptView where
  schema : TranscriptViewSchema
  meetingId : Uuid
  baseTranscriptSha256 : String
  parentTranscriptSha256 : String
  restoredSourceTurnIndices : List UInt32
deriving DecidableEq

structure RestoreWithheldTurnUiArgs where
  meetingId : Uuid
  sourceTranscriptSha256 : String
  sourceTurnIndex : UInt32
deriving DecidableEq

/-- One source speaker group and the label the note generator may see. -/
structure SpeakerLabelOverride where
  sourceSpeaker : Option String
  replacement : String
deriving DecidableEq, Repr

/-- A prompt-only substitution tied to an exact span of the retained source. -/
structure VocabularyRangeReplacement where
  turn : UInt32
  charStart : UInt32
  charEnd : UInt32
  sourceSha256 : String
  replacement : String
deriving DecidableEq, Repr

structure RegenerateNoteUiArgs where
  meetingId : Uuid
  sourceTranscriptSha256 : String
  speakerLabelOverrides : List SpeakerLabelOverride
  vocabularyReplacements : List VocabularyRangeReplacement
  preMeetingContext : Option String
deriving DecidableEq

structure TranscriptRestoreWorkerArgs where
  meetingId : Uuid
  sourceTranscriptSha256 : String
  sourceTurnIndex : UInt32
deriving DecidableEq

/-- The worker is given the fields of the request that bear on the prompt. -/
structure NoteCreateWorkerArgs where
  meetingId : Uuid
  sourceTranscriptSha256 : String
  speakerLabelOverrides : List SpeakerLabelOverride
  vocabularyReplacements : List VocabularyRangeReplacement
  preMeetingContext : Option String
deriving DecidableEq

/-! ## Receipts -/

inductive ProductOperationKind where
  | restoreWithheldTurn
  | generateNote
  | transcriptRetry
deriving DecidableEq, Repr

inductive TranscriptRestorationRequestSchema where
  | v1
deriving DecidableEq, Repr, Inhabited

structure TranscriptRestorationRequest where
  schema : TranscriptRestorationRequestSchema
  operationId : Uuid
  meetingId : Uuid
  requestedAtEpochSeconds : UInt64
  sourceTranscriptSha256 : String
  sourceTurnIndex : UInt32
  priorNote : Option NoteRevisionRef
deriving DecidableEq

inductive TranscriptRestorationResultSchema where
  | v1
deriving DecidableEq, Repr, Inhabited

structure TranscriptRestorationResult where
  schema : TranscriptRestorationResultSchema
  operationId : Uuid
  meetingId : Uuid
  sourceTranscriptSha256 : String
  view : ArtifactRef
  baseTranscriptSha256 : String
  parentTranscriptSha256 : String
  restoredSourceTurnIndices : List UInt32
deriving DecidableEq

inductive NoteGenerationRequestSchema where
  | v1
  | v2
deriving DecidableEq, Repr, Inhabited

structure NoteGenerationRequest where
  schema : NoteGenerationRequestSchema
  operationId : Uuid
  meetingId : Uuid
  requestedAtEpochSeconds : UInt64
  sourceTranscriptSha256 : String
  speakerLabelOverrides : List SpeakerLabelOverride
  vocabularyReplacements : List VocabularyRangeReplacement
  priorNote : Option NoteRevisionRef
  preMeetingContext : Option String
deriving DecidableEq

inductive NoteGenerationStatus where
  | accepted
  | rejected
deriving DecidableEq, Repr

inductive NoteFailureCode where
  | noteRejected
  | modelUnavailable
  | operationInterrupted
deriving DecidableEq, Repr

inductive NoteGenerationResultSchema where
  | v1
deriving DecidableEq, Repr, Inhabited

structure NoteGenerationResult where
  schema : NoteGenerationResultSchema
  operationId : Uuid
  meetingId : Uuid
  sourceTranscriptSha256 : String
  status : NoteGenerationStatus
  note : Option NoteRevisionRef
  failureCode : Option NoteFailureCode
deriving DecidableEq

/-- The digests a worker reports for the artifacts it published, by role. -/
abbrev Digests : Type := Finmap fun _ : String => String

/-- `digests["…"]`; the callers look only at roles they checked to be there. -/
def Digests.at (digests : Digests) (role : String) : String := (digests.lookup role).getD ""

inductive NoteCreateWorkerFailureCode where
  | noteRejected
deriving DecidableEq, Repr

structure NoteCreateWorkerFailure where
  code : NoteCreateWorkerFailureCode
  recoverable : Bool
  artifactDigests : Digests
deriving DecidableEq

inductive ProductOperationOutcome where
  | transcriptRestored
  | noteAccepted
  | noteRejected
deriving DecidableEq, Repr

inductive MeetingOperationCommitSchema where
  | v1
deriving DecidableEq, Repr, Inhabited

structure MeetingOperationCommit where
  schema : MeetingOperationCommitSchema
  operationId : Uuid
  meetingId : Uuid
  kind : ProductOperationKind
  outcome : ProductOperationOutcome
  requestSha256 : String
  resultSha256 : String
  committedMeetingSha256 : String
  committedAtEpochSeconds : UInt64
  lifecycle : MeetingLifecycle
  currentTranscriptSha256 : String
  currentNote : Option NoteRevisionRef
deriving DecidableEq

/-! ## JSON forms -/

instance : Serde TranscriptViewSchema :=
  Serde.ofNames (fun | .v1 => "transcript-view/1") [.v1] (by intro a; cases a; rfl)

instance : Serde TranscriptRestorationRequestSchema :=
  Serde.ofNames (fun | .v1 => "transcript-restoration-request/1") [.v1] (by intro a; cases a; rfl)

instance : Serde TranscriptRestorationResultSchema :=
  Serde.ofNames (fun | .v1 => "transcript-restoration-result/1") [.v1] (by intro a; cases a; rfl)

instance : Serde NoteGenerationRequestSchema :=
  Serde.ofNames
    (fun
      | .v1 => "note-generation-request/1"
      | .v2 => "note-generation-request/2")
    [.v1, .v2] (by intro a; cases a <;> decide)

instance : Serde NoteGenerationResultSchema :=
  Serde.ofNames (fun | .v1 => "note-generation-result/1") [.v1] (by intro a; cases a; rfl)

instance : Serde MeetingOperationCommitSchema :=
  Serde.ofNames (fun | .v1 => "meeting-operation-commit/1") [.v1] (by intro a; cases a; rfl)

instance : Serde ProductOperationKind :=
  Serde.ofNames
    (fun
      | .restoreWithheldTurn => "restore-withheld-turn"
      | .generateNote => "generate-note"
      | .transcriptRetry => "transcript-retry")
    [.restoreWithheldTurn, .generateNote, .transcriptRetry] (by intro a; cases a <;> decide)

instance : Serde ProductOperationOutcome :=
  Serde.ofNames
    (fun
      | .transcriptRestored => "transcript-restored"
      | .noteAccepted => "note-accepted"
      | .noteRejected => "note-rejected")
    [.transcriptRestored, .noteAccepted, .noteRejected] (by intro a; cases a <;> decide)

instance : Serde NoteGenerationStatus :=
  Serde.ofNames
    (fun
      | .accepted => "accepted"
      | .rejected => "rejected")
    [.accepted, .rejected] (by intro a; cases a <;> decide)

instance : Serde NoteFailureCode :=
  Serde.ofNames
    (fun
      | .noteRejected => "note-rejected"
      | .modelUnavailable => "model-unavailable"
      | .operationInterrupted => "operation-interrupted")
    [.noteRejected, .modelUnavailable, .operationInterrupted] (by intro a; cases a <;> decide)

instance : Serde TranscriptView where
  toValue v := .object
    [("schema", Serde.toValue v.schema), ("meeting_id", Serde.toValue v.meetingId),
      ("base_transcript_sha256", Serde.toValue v.baseTranscriptSha256),
      ("parent_transcript_sha256", Serde.toValue v.parentTranscriptSha256),
      ("restored_source_turn_indices", Serde.toValue v.restoredSourceTurnIndices)]
  fromValue v := do
    let fs ← closedFields ["schema", "meeting_id", "base_transcript_sha256",
      "parent_transcript_sha256", "restored_source_turn_indices"] v
    return {
      schema := ← requiredField fs "schema"
      meetingId := ← requiredField fs "meeting_id"
      baseTranscriptSha256 := ← requiredField fs "base_transcript_sha256"
      parentTranscriptSha256 := ← requiredField fs "parent_transcript_sha256"
      restoredSourceTurnIndices := ← requiredField fs "restored_source_turn_indices" }
  fromValue_toValue v := by
    refine (closedFields_bind rfl).trans ?_
    repeat refine (requiredField_bind rfl).trans ?_
    rfl
  plain_toValue v := Value.plain_object (by simp [Value.plainFields]) rfl
  toValue_ne_null v := by simp

instance : Serde SpeakerLabelOverride where
  toValue o := .object
    [("source_speaker", nullable o.sourceSpeaker), ("replacement", Serde.toValue o.replacement)]
  fromValue v := do
    let fs ← closedFields ["source_speaker", "replacement"] v
    return {
      sourceSpeaker := ← optionalField fs "source_speaker"
      replacement := ← requiredField fs "replacement" }
  fromValue_toValue o := by
    refine (closedFields_bind rfl).trans ?_
    repeat first
      | refine (requiredField_bind rfl).trans ?_
      | refine (optionalField_bind rfl).trans ?_
    rfl
  plain_toValue o := Value.plain_object (by simp [Value.plainFields]) rfl
  toValue_ne_null o := by simp

instance : Serde VocabularyRangeReplacement where
  toValue r := .object
    [("turn", Serde.toValue r.turn), ("char_start", Serde.toValue r.charStart),
      ("char_end", Serde.toValue r.charEnd), ("source_sha256", Serde.toValue r.sourceSha256),
      ("replacement", Serde.toValue r.replacement)]
  fromValue v := do
    let fs ← closedFields ["turn", "char_start", "char_end", "source_sha256", "replacement"] v
    return {
      turn := ← requiredField fs "turn"
      charStart := ← requiredField fs "char_start"
      charEnd := ← requiredField fs "char_end"
      sourceSha256 := ← requiredField fs "source_sha256"
      replacement := ← requiredField fs "replacement" }
  fromValue_toValue r := by
    refine (closedFields_bind rfl).trans ?_
    repeat refine (requiredField_bind rfl).trans ?_
    rfl
  plain_toValue r := Value.plain_object (by simp [Value.plainFields]) rfl
  toValue_ne_null r := by simp

instance : Serde TranscriptRestorationRequest where
  toValue r := .object
    [("schema", Serde.toValue r.schema), ("operation_id", Serde.toValue r.operationId),
      ("meeting_id", Serde.toValue r.meetingId),
      ("requested_at_epoch_seconds", Serde.toValue r.requestedAtEpochSeconds),
      ("source_transcript_sha256", Serde.toValue r.sourceTranscriptSha256),
      ("source_turn_index", Serde.toValue r.sourceTurnIndex),
      ("prior_note", nullable r.priorNote)]
  fromValue v := do
    let fs ← closedFields ["schema", "operation_id", "meeting_id", "requested_at_epoch_seconds",
      "source_transcript_sha256", "source_turn_index", "prior_note"] v
    return {
      schema := ← requiredField fs "schema"
      operationId := ← requiredField fs "operation_id"
      meetingId := ← requiredField fs "meeting_id"
      requestedAtEpochSeconds := ← requiredField fs "requested_at_epoch_seconds"
      sourceTranscriptSha256 := ← requiredField fs "source_transcript_sha256"
      sourceTurnIndex := ← requiredField fs "source_turn_index"
      priorNote := ← optionalField fs "prior_note" }
  fromValue_toValue r := by
    refine (closedFields_bind rfl).trans ?_
    repeat first
      | refine (requiredField_bind rfl).trans ?_
      | refine (optionalField_bind rfl).trans ?_
    rfl
  plain_toValue r := Value.plain_object (by simp [Value.plainFields]) rfl
  toValue_ne_null r := by simp

instance : Serde TranscriptRestorationResult where
  toValue r := .object
    [("schema", Serde.toValue r.schema), ("operation_id", Serde.toValue r.operationId),
      ("meeting_id", Serde.toValue r.meetingId),
      ("source_transcript_sha256", Serde.toValue r.sourceTranscriptSha256),
      ("view", Serde.toValue r.view),
      ("base_transcript_sha256", Serde.toValue r.baseTranscriptSha256),
      ("parent_transcript_sha256", Serde.toValue r.parentTranscriptSha256),
      ("restored_source_turn_indices", Serde.toValue r.restoredSourceTurnIndices)]
  fromValue v := do
    let fs ← closedFields ["schema", "operation_id", "meeting_id", "source_transcript_sha256",
      "view", "base_transcript_sha256", "parent_transcript_sha256",
      "restored_source_turn_indices"] v
    return {
      schema := ← requiredField fs "schema"
      operationId := ← requiredField fs "operation_id"
      meetingId := ← requiredField fs "meeting_id"
      sourceTranscriptSha256 := ← requiredField fs "source_transcript_sha256"
      view := ← requiredField fs "view"
      baseTranscriptSha256 := ← requiredField fs "base_transcript_sha256"
      parentTranscriptSha256 := ← requiredField fs "parent_transcript_sha256"
      restoredSourceTurnIndices := ← requiredField fs "restored_source_turn_indices" }
  fromValue_toValue r := by
    refine (closedFields_bind rfl).trans ?_
    repeat refine (requiredField_bind rfl).trans ?_
    rfl
  plain_toValue r := Value.plain_object (by simp [Value.plainFields]) rfl
  toValue_ne_null r := by simp

namespace NoteGenerationRequest

def fieldNames : List String :=
  ["schema", "operation_id", "meeting_id", "requested_at_epoch_seconds",
    "source_transcript_sha256", "speaker_label_overrides", "vocabulary_replacements",
    "prior_note", "pre_meeting_context"]

/-- The fields every note request is written with. -/
def mandatory (r : NoteGenerationRequest) : List (String × Value) :=
  [("schema", Serde.toValue r.schema), ("operation_id", Serde.toValue r.operationId),
    ("meeting_id", Serde.toValue r.meetingId),
    ("requested_at_epoch_seconds", Serde.toValue r.requestedAtEpochSeconds),
    ("source_transcript_sha256", Serde.toValue r.sourceTranscriptSha256)]

/-- The fields a note request is written with: empty overlays, no prior note
and no context leave nothing behind, which keeps a request without them
byte-identical to the shape before those fields existed. -/
def written (r : NoteGenerationRequest) : List (String × Value) :=
  r.mandatory ++ (unlessEmpty "speaker_label_overrides" r.speakerLabelOverrides ++
    (unlessEmpty "vocabulary_replacements" r.vocabularyReplacements ++
      (unlessNone "prior_note" r.priorNote ++
        unlessNone "pre_meeting_context" r.preMeetingContext)))

theorem written_names (r : NoteGenerationRequest) :
    List.Sublist (r.written.map Prod.fst) fieldNames := by
  simp only [written, List.map_append]
  exact .append (.refl _) (.append (unlessEmpty_names _ _) (.append (unlessEmpty_names _ _)
    (.append (unlessNone_names _ _) (unlessNone_names _ _))))

theorem nodup_fieldNames : fieldNames.Nodup := by decide

end NoteGenerationRequest

instance : Serde NoteGenerationRequest where
  toValue r := .object r.written
  fromValue v := do
    let fs ← closedFields NoteGenerationRequest.fieldNames v
    return {
      schema := ← requiredField fs "schema"
      operationId := ← requiredField fs "operation_id"
      meetingId := ← requiredField fs "meeting_id"
      requestedAtEpochSeconds := ← requiredField fs "requested_at_epoch_seconds"
      sourceTranscriptSha256 := ← requiredField fs "source_transcript_sha256"
      speakerLabelOverrides := ← defaultedField fs "speaker_label_overrides"
      vocabularyReplacements := ← defaultedField fs "vocabulary_replacements"
      priorNote := ← optionalField fs "prior_note"
      preMeetingContext := ← optionalField fs "pre_meeting_context" }
  fromValue_toValue r := by
    have hfield : ∀ name, fieldOf r.mandatory name = none →
        fieldOf r.written name =
          (fieldOf (unlessEmpty "speaker_label_overrides" r.speakerLabelOverrides) name).or
            ((fieldOf (unlessEmpty "vocabulary_replacements" r.vocabularyReplacements) name).or
              ((fieldOf (unlessNone "prior_note" r.priorNote) name).or
                (fieldOf (unlessNone "pre_meeting_context" r.preMeetingContext) name))) := by
      intro name h
      simp only [NoteGenerationRequest.written, fieldOf_append, h, Option.none_or]
    have hlabels : fieldOf r.written "speaker_label_overrides" =
        if r.speakerLabelOverrides ≠ [] then some (Serde.toValue r.speakerLabelOverrides)
        else none := by
      rw [hfield _ rfl]
      simp [fieldOf_unlessEmpty, fieldOf_unlessNone]
    have hvocabulary : fieldOf r.written "vocabulary_replacements" =
        if r.vocabularyReplacements ≠ [] then some (Serde.toValue r.vocabularyReplacements)
        else none := by
      rw [hfield _ rfl]
      simp [fieldOf_unlessEmpty, fieldOf_unlessNone]
    have hnote : fieldOf r.written "prior_note" = r.priorNote.map Serde.toValue := by
      rw [hfield _ rfl]
      simp [fieldOf_unlessEmpty, fieldOf_unlessNone]
    have hcontext : fieldOf r.written "pre_meeting_context" =
        r.preMeetingContext.map Serde.toValue := by
      rw [hfield _ rfl]
      simp [fieldOf_unlessEmpty, fieldOf_unlessNone]
    refine (closedFields_bind_sublist r.written_names
      NoteGenerationRequest.nodup_fieldNames).trans ?_
    iterate 5 refine (requiredField_bind rfl).trans ?_
    refine (defaultedField_bind hlabels).trans ?_
    refine (defaultedField_bind hvocabulary).trans ?_
    refine (optionalField_bind_map hnote).trans ?_
    refine (optionalField_bind_map hcontext).trans ?_
    rfl
  plain_toValue r := by
    rw [Value.plain, Bool.and_eq_true, decide_eq_true_eq]
    refine ⟨?_, NoteGenerationRequest.nodup_fieldNames.sublist r.written_names⟩
    simp [NoteGenerationRequest.written, NoteGenerationRequest.mandatory,
      Value.plainFields_append, Value.plainFields, plainFields_unlessEmpty, plainFields_unlessNone]
  toValue_ne_null r := by simp

instance : Serde NoteGenerationResult where
  toValue r := .object
    [("schema", Serde.toValue r.schema), ("operation_id", Serde.toValue r.operationId),
      ("meeting_id", Serde.toValue r.meetingId),
      ("source_transcript_sha256", Serde.toValue r.sourceTranscriptSha256),
      ("status", Serde.toValue r.status), ("note", nullable r.note),
      ("failure_code", nullable r.failureCode)]
  fromValue v := do
    let fs ← closedFields ["schema", "operation_id", "meeting_id", "source_transcript_sha256",
      "status", "note", "failure_code"] v
    return {
      schema := ← requiredField fs "schema"
      operationId := ← requiredField fs "operation_id"
      meetingId := ← requiredField fs "meeting_id"
      sourceTranscriptSha256 := ← requiredField fs "source_transcript_sha256"
      status := ← requiredField fs "status"
      note := ← optionalField fs "note"
      failureCode := ← optionalField fs "failure_code" }
  fromValue_toValue r := by
    refine (closedFields_bind rfl).trans ?_
    repeat first
      | refine (requiredField_bind rfl).trans ?_
      | refine (optionalField_bind rfl).trans ?_
    rfl
  plain_toValue r := Value.plain_object (by simp [Value.plainFields]) rfl
  toValue_ne_null r := by simp

instance : Serde MeetingOperationCommit where
  toValue c := .object
    [("schema", Serde.toValue c.schema), ("operation_id", Serde.toValue c.operationId),
      ("meeting_id", Serde.toValue c.meetingId), ("kind", Serde.toValue c.kind),
      ("outcome", Serde.toValue c.outcome), ("request_sha256", Serde.toValue c.requestSha256),
      ("result_sha256", Serde.toValue c.resultSha256),
      ("committed_meeting_sha256", Serde.toValue c.committedMeetingSha256),
      ("committed_at_epoch_seconds", Serde.toValue c.committedAtEpochSeconds),
      ("lifecycle", Serde.toValue c.lifecycle),
      ("current_transcript_sha256", Serde.toValue c.currentTranscriptSha256),
      ("current_note", nullable c.currentNote)]
  fromValue v := do
    let fs ← closedFields ["schema", "operation_id", "meeting_id", "kind", "outcome",
      "request_sha256", "result_sha256", "committed_meeting_sha256",
      "committed_at_epoch_seconds", "lifecycle", "current_transcript_sha256", "current_note"] v
    return {
      schema := ← requiredField fs "schema"
      operationId := ← requiredField fs "operation_id"
      meetingId := ← requiredField fs "meeting_id"
      kind := ← requiredField fs "kind"
      outcome := ← requiredField fs "outcome"
      requestSha256 := ← requiredField fs "request_sha256"
      resultSha256 := ← requiredField fs "result_sha256"
      committedMeetingSha256 := ← requiredField fs "committed_meeting_sha256"
      committedAtEpochSeconds := ← requiredField fs "committed_at_epoch_seconds"
      lifecycle := ← requiredField fs "lifecycle"
      currentTranscriptSha256 := ← requiredField fs "current_transcript_sha256"
      currentNote := ← optionalField fs "current_note" }
  fromValue_toValue c := by
    refine (closedFields_bind rfl).trans ?_
    repeat first
      | refine (requiredField_bind rfl).trans ?_
      | refine (optionalField_bind rfl).trans ?_
    rfl
  plain_toValue c := Value.plain_object (by simp [Value.plainFields]) rfl
  toValue_ne_null c := by simp

/-! ## A note receipt is not read as a restoration receipt

Both readers try the restoration form first.  The two closed records name their
schemas differently, so the first attempt fails on a note receipt. -/

theorem fromValue_restorationRequest_note (r : NoteGenerationRequest) :
    (Serde.fromValue (Serde.toValue r) : Option TranscriptRestorationRequest) = none := by
  have hschema : fieldOf r.written "schema" = some (Serde.toValue r.schema) := rfl
  have hother : (Serde.fromValue (Serde.toValue r.schema) :
      Option TranscriptRestorationRequestSchema) = none := by cases r.schema <;> decide
  have hrequired : (requiredField r.written "schema" :
      Option TranscriptRestorationRequestSchema) = none := by
    rw [requiredField, hschema, Option.bind_some, hother]
  change (closedFields _ (.object r.written)).bind _ = none
  cases hclosed : closedFields ["schema", "operation_id", "meeting_id",
      "requested_at_epoch_seconds", "source_transcript_sha256", "source_turn_index",
      "prior_note"] (.object r.written) with
  | none => rfl
  | some fs =>
    have hfs : fs = r.written := by
      unfold closedFields at hclosed
      split at hclosed <;> simp_all
    rw [Option.bind_some, hfs]
    change (requiredField r.written "schema").bind _ = none
    rw [hrequired]
    rfl

theorem fromValue_restorationResult_note (r : NoteGenerationResult) :
    (Serde.fromValue (Serde.toValue r) : Option TranscriptRestorationResult) = none := rfl

end YawnApp.SessionCore
