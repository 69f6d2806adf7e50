import YawnApp.SessionCore.RestorationRecovery

set_option autoImplicit false

/-!
# Two validators of the same receipts

The store checks a request, its result and their commit as it writes them; the contract
of the operations checks the three together once they are read back.  For a note both
make the same checks.  For a restoration the contract does not compare the source
transcript of the request with that of the result.
-/

namespace YawnApp.SessionCore

open YawnApp.Foundation

/-! ## The two validators -/

section Validators

variable {B : Type} [Platform B] [DecidableEq B] {meetingBytes : B}
  {commit : MeetingOperationCommit} {meeting : MeetingRecord} {v : Value}

/-- The checks that `write_request`, `write_result` and `write_commit` make of the
receipts and of the meeting, in their order. -/
def storeValidates (request : StoredOperationRequest) (result : StoredOperationResult)
    (commit : MeetingOperationCommit) (meeting : MeetingRecord) (meetingBytes : B) :
    Except OperationStoreError Unit := do
  request.validate
  result.validate
  validateResultMatchesRequest request result
  commit.validate.mapError .ofContract
  validateCommitMatchesReceipts B request result commit
  (validateCommitMeeting commit meeting meetingBytes).mapError .ofContract

/-- The validator of the request's kind accepts; there is none for receipts of two
kinds. -/
def ContractAccepts (request : StoredOperationRequest) (result : StoredOperationResult)
    (commit : MeetingOperationCommit) (meeting : MeetingRecord) (meetingBytes : B) : Prop :=
  match request, result with
  | .restoration request, .restoration result =>
    validateRestorationReceipts request result commit meeting meetingBytes = .ok ()
  | .noteGeneration request, .noteGeneration result =>
    validateNoteReceipts request result commit meeting meetingBytes = .ok ()
  | _, _ => False

/-- The request and the result are valid restoration receipts of one operation that name
two source transcripts. -/
def NamesTwoSources : StoredOperationRequest → StoredOperationResult → Prop
  | .restoration request, .restoration result =>
    request.validate = .ok () ∧ result.validate = .ok () ∧
      request.operationId = result.operationId ∧ request.meetingId = result.meetingId ∧
      request.sourceTranscriptSha256 ≠ result.sourceTranscriptSha256
  | _, _ => False

/-! ## Where they agree -/

theorem storeValidates_note {request : NoteGenerationRequest} {result : NoteGenerationResult} :
    storeValidates (.noteGeneration request) (.noteGeneration result) commit meeting meetingBytes =
        .ok () ↔
      validateNoteReceipts request result commit meeting meetingBytes = .ok () := by
  unfold storeValidates validateNoteReceipts validateResultMatchesRequest
    validateCommitMatchesReceipts
  simp only [check_bind_eq_ok, refuseIf_eq_ok, mapError_eq_ok, StoredOperationRequest.validate,
    StoredOperationResult.validate, not_not, not_or]
  unfold resultMatchesRequest commitMatchesReceipts digestPretty
  simp only [StoredOperationRequest.canonicalBytes, StoredOperationResult.canonicalBytes,
    Bool.and_eq_true, beq_iff_eq]
  constructor
  · intro h
    obtain ⟨hrequest, hresult, ⟨⟨hid, hmeeting⟩, hsource⟩, hcommit,
      ⟨⟨⟨⟨⟨⟨⟨hcid, hcmeeting⟩, hkind⟩, houtcome⟩, hrsha⟩, hressha⟩, htranscript⟩, hnote⟩,
      hbytes⟩ := h
    exact ⟨hrequest, hresult, hcommit, ⟨hid, hcid.symm, hmeeting, hcmeeting.symm, hsource,
      htranscript.symm, hrsha.symm, hressha.symm, hkind, houtcome, hnote⟩, hbytes⟩
  · intro h
    obtain ⟨hrequest, hresult, hcommit, ⟨hid, hcid, hmeeting, hcmeeting, hsource, htranscript,
      hrsha, hressha, hkind, houtcome, hnote⟩, hbytes⟩ := h
    exact ⟨hrequest, hresult, ⟨⟨hid, hmeeting⟩, hsource⟩, hcommit,
      ⟨⟨⟨⟨⟨⟨⟨hcid.symm, hcmeeting.symm⟩, hkind⟩, houtcome⟩, hrsha.symm⟩, hressha.symm⟩,
        htranscript.symm⟩, hnote⟩, hbytes⟩

/-- For a restoration the store makes the checks of the contract, and compares the source
transcripts. -/
theorem storeValidates_restoration {request : TranscriptRestorationRequest}
    {result : TranscriptRestorationResult} :
    storeValidates (.restoration request) (.restoration result) commit meeting meetingBytes =
        .ok () ↔
      request.sourceTranscriptSha256 = result.sourceTranscriptSha256 ∧
        validateRestorationReceipts request result commit meeting meetingBytes = .ok () := by
  unfold storeValidates validateRestorationReceipts validateResultMatchesRequest
    validateCommitMatchesReceipts
  simp only [check_bind_eq_ok, refuseIf_eq_ok, mapError_eq_ok, StoredOperationRequest.validate,
    StoredOperationResult.validate, not_not, not_or]
  unfold resultMatchesRequest commitMatchesReceipts digestPretty
  simp only [StoredOperationRequest.canonicalBytes, StoredOperationResult.canonicalBytes,
    Bool.and_eq_true, beq_iff_eq]
  constructor
  · intro h
    obtain ⟨hrequest, hresult, ⟨⟨hid, hmeeting⟩, hsource⟩, hcommit,
      ⟨⟨⟨⟨⟨⟨hcid, hcmeeting⟩, hkind⟩, houtcome⟩, hrsha⟩, hressha⟩, htranscript⟩, hbytes⟩ := h
    exact ⟨hsource, hrequest, hresult, hcommit, ⟨hid, hcid.symm, hmeeting, hcmeeting.symm,
      hrsha.symm, hressha.symm, hkind, houtcome, htranscript⟩, hbytes⟩
  · intro h
    obtain ⟨hsource, hrequest, hresult, hcommit, ⟨hid, hcid, hmeeting, hcmeeting, hrsha, hressha,
      hkind, houtcome, htranscript⟩, hbytes⟩ := h
    exact ⟨hrequest, hresult, ⟨⟨hid, hmeeting⟩, hsource⟩, hcommit,
      ⟨⟨⟨⟨⟨⟨hcid.symm, hcmeeting.symm⟩, hkind⟩, houtcome⟩, hrsha.symm⟩, hressha.symm⟩,
        htranscript⟩, hbytes⟩

theorem storeValidates_mixed {request : StoredOperationRequest} {result : StoredOperationResult}
    (h : resultMatchesRequest request result = false) :
    storeValidates request result commit meeting meetingBytes ≠ .ok () := by
  intro hok
  unfold storeValidates validateResultMatchesRequest at hok
  simp only [check_bind_eq_ok, refuseIf_eq_ok, not_not] at hok
  rw [h] at hok
  exact absurd hok.2.2.1 Bool.false_ne_true

/-! ## Where they do not -/

/-- A meeting that shows that view. -/
def meetingShowing (B : Type) [Platform B] (meetingId : Uuid) (view : ArtifactRef) :
    MeetingRecord where
  schema := .v2
  meetingId := meetingId.text
  lifecycle := .transcriptReady
  retention := {
    rule := .untilManualDeletion
    policySha256 := MeetingRecord.retentionPolicySha256 B .untilManualDeletion
    nextDeletionAtEpochSeconds := none
    state := .retained
    deletionReceipt := none }
  artifacts := {
    attempt := ⟨"attempt.json", view.sha256⟩
    ownership := some ⟨"ownership.json", view.sha256⟩
    captureSession := some ⟨"capture/session.json", view.sha256⟩
    microphoneAudio := some ⟨microphoneAudioPath, view.sha256⟩
    systemAudio := some ⟨systemAudioPath, view.sha256⟩
    currentTranscript := some view
    currentNote := none }
  pendingStorageOperation := none

omit [DecidableEq B] in
theorem meetingShowing_valid {meetingId : Uuid} {view : ArtifactRef}
    (h : view.validateDigestNamed "transcript" "json" = .ok ()) :
    (meetingShowing B meetingId view).validate B meetingId.text = .ok () := by
  have hsha : validSha256 view.sha256 = true := by
    unfold ArtifactRef.validateDigestNamed validateSha256 at h
    simp only [check_bind_eq_ok, refuseIf_eq_ok, not_not] at h
    exact h.1
  have hdigest : validateSha256 view.sha256 = .ok () := by
    unfold validateSha256
    rw [refuseIf_of_not (not_not.mpr hsha)]
  rw [MeetingRecord.validate_eq_ok]
  refine ⟨?_, ?_, ?_, rfl, rfl, rfl, rfl⟩
  · unfold MeetingRecord.validateIdentity
    rw [refuseIf_of_not]
    simp [meetingShowing, meetingId.validOpaqueId]
  · unfold MeetingRecord.validateRetentionRule
    simp [meetingShowing]
  · unfold MeetingRecord.validateReferences
    simp [meetingShowing, validateRef, validateAudioRef, hdigest, h]

/-- The commit of a restoration to that meeting. -/
def commitShowing (B : Type) [Platform B] (request : TranscriptRestorationRequest)
    (result : TranscriptRestorationResult) : MeetingOperationCommit where
  schema := .v1
  operationId := request.operationId
  meetingId := request.meetingId
  kind := .restoreWithheldTurn
  outcome := .transcriptRestored
  requestSha256 := digestPretty B request
  resultSha256 := digestPretty B result
  committedMeetingSha256 :=
    Platform.sha256 (toVecPretty (meetingShowing B request.meetingId result.view) : B)
  committedAtEpochSeconds := 1
  lifecycle := .transcriptReady
  currentTranscriptSha256 := result.view.sha256
  currentNote := none

/-- Any two valid restoration receipts of one operation have a commit and a meeting with
which the contract accepts them. -/
theorem contract_accepts_restoration {request : TranscriptRestorationRequest}
    {result : TranscriptRestorationResult} (hrequest : request.validate = .ok ())
    (hresult : result.validate = .ok ()) (hid : request.operationId = result.operationId)
    (hmeeting : request.meetingId = result.meetingId) :
    validateRestorationReceipts request result (commitShowing B request result)
      (meetingShowing B request.meetingId result.view)
      (toVecPretty (meetingShowing B request.meetingId result.view) : B) = .ok () := by
  have hview : result.view.validateDigestNamed "transcript" "json" = .ok () := by
    unfold TranscriptRestorationResult.validate at hresult
    simp only [check_bind_eq_ok, mapError_eq_ok] at hresult
    exact hresult.2.2.2.1
  have hsha : validSha256 result.view.sha256 = true := by
    unfold ArtifactRef.validateDigestNamed validateSha256 at hview
    simp only [check_bind_eq_ok, refuseIf_eq_ok, not_not] at hview
    exact hview.1
  have hcommit : (commitShowing B request result).validate = .ok () := by
    unfold MeetingOperationCommit.validate validateDigest
    simp [commitShowing, digestPretty, hsha, commitCoherent]
  unfold validateRestorationReceipts validateCommitMeeting
  rw [hrequest, ok_bind, hresult, ok_bind, hcommit, ok_bind,
    refuseIf_of_not (by simp [commitShowing, hid, hmeeting]), ok_bind, ok_bind,
    show (commitShowing B request result).meetingId = request.meetingId from rfl,
    meetingShowing_valid hview, mapError_ok, ok_bind, fromSlice_toVecPretty, orRefuse_some, ok_bind]
  simp [meetingShowing, commitShowing]

/-! ## The bytes of receipts -/

/-- The bytes are read as a restoration request or result. -/
def ReadsRestoration (bytes : B) : Prop :=
  (∃ r : TranscriptRestorationRequest, fromSlice bytes = some r) ∨
    ∃ r : TranscriptRestorationResult, fromSlice bytes = some r

/-- The bytes are read as a note request or result. -/
def ReadsNote (bytes : B) : Prop :=
  (∃ r : NoteGenerationRequest, fromSlice bytes = some r) ∨
    ∃ r : NoteGenerationResult, fromSlice bytes = some r

/-- The field `schema` of a document. -/
def schemaOf (v : Value) : Option String :=
  match v with
  | .object fs => (fieldOf fs "schema").bind Value.asStr
  | _ => none

/-- A closed record whose first field read is its schema. -/
theorem schemaOf_record {α β : Type} [Serde α] {names : List String} {b : β}
    {rest : List (String × Value) → α → Option β} (h : ((closedFields names v).bind fun fs =>
      (requiredField fs "schema" : Option α).bind fun schema => rest fs schema) = some b) :
    ∃ x, ∃ a : α, Serde.fromValue x = some a ∧ schemaOf v = x.asStr := by
  obtain ⟨fs, hclosed, h⟩ := Option.bind_eq_some_iff.mp h
  obtain ⟨schema, hschema, -⟩ := Option.bind_eq_some_iff.mp h
  obtain ⟨x, hx, hread⟩ := Option.bind_eq_some_iff.mp hschema
  refine ⟨x, schema, hread, ?_⟩
  have hv : v = .object fs := by
    unfold closedFields at hclosed
    split at hclosed
    · split at hclosed
      · rw [Option.some.inj hclosed]
      · cases hclosed
    · cases hclosed
  rw [hv, schemaOf, hx, Option.bind_some]

/-- The names of the schemas of restoration receipts. -/
def restorationSchemas : List String :=
  ["transcript-restoration-request/1", "transcript-restoration-result/1"]

def noteSchemas : List String :=
  ["note-generation-request/1", "note-generation-request/2", "note-generation-result/1"]

/-- An enumeration is read from one of its names. -/
theorem asStr_of_ofNames {α : Type} {name : α → String} {all : List α}
    {hall : ∀ a, all.find? (fun b => name b == name a) = some a} {x : Value} {a : α}
    (h : (Serde.ofNames name all hall).fromValue x = some a) : x.asStr = some (name a) := by
  obtain ⟨s, hs, hfind⟩ := Option.bind_eq_some_iff.mp h
  have hname := List.find?_some hfind
  rw [beq_iff_eq] at hname
  rw [hs, hname]

theorem schemaOf_restoration (h : (∃ r : TranscriptRestorationRequest, Serde.fromValue v = some r) ∨
      ∃ r : TranscriptRestorationResult, Serde.fromValue v = some r) :
    ∃ s ∈ restorationSchemas, schemaOf v = some s := by
  rcases h with ⟨r, h⟩ | ⟨r, h⟩
  · obtain ⟨x, a, hread, hschema⟩ := schemaOf_record h
    rw [hschema, asStr_of_ofNames hread]
    cases a
    exact ⟨_, by decide, rfl⟩
  · obtain ⟨x, a, hread, hschema⟩ := schemaOf_record h
    rw [hschema, asStr_of_ofNames hread]
    cases a
    exact ⟨_, by decide, rfl⟩

theorem schemaOf_note (h : (∃ r : NoteGenerationRequest, Serde.fromValue v = some r) ∨
      ∃ r : NoteGenerationResult, Serde.fromValue v = some r) :
    ∃ s ∈ noteSchemas, schemaOf v = some s := by
  rcases h with ⟨r, h⟩ | ⟨r, h⟩
  · obtain ⟨x, a, hread, hschema⟩ := schemaOf_record h
    rw [hschema, asStr_of_ofNames hread]
    cases a
    · exact ⟨_, by decide, rfl⟩
    · exact ⟨_, by decide, rfl⟩
  · obtain ⟨x, a, hread, hschema⟩ := schemaOf_record h
    rw [hschema, asStr_of_ofNames hread]
    cases a
    exact ⟨_, by decide, rfl⟩

omit [DecidableEq B] in
/-- No bytes are read as receipts of both kinds. -/
theorem not_reads_both (bytes : B) : ¬ (ReadsRestoration bytes ∧ ReadsNote bytes) := by
  rintro ⟨hrestoration, hnote⟩
  unfold ReadsRestoration ReadsNote fromSlice at *
  cases htext : JsonText.readText bytes with
  | none => simp [htext] at hrestoration
  | some =>
    rw [htext] at hrestoration hnote
    simp only [Option.bind_some] at hrestoration hnote
    obtain ⟨s, hs, hschema⟩ := schemaOf_restoration hrestoration
    obtain ⟨t, ht, hschema'⟩ := schemaOf_note hnote
    rw [hschema, Option.some.injEq] at hschema'
    subst hschema'
    have hdisjoint : ∀ name ∈ restorationSchemas, name ∉ noteSchemas := by decide
    exact hdisjoint s hs ht

/-! ## The two validators agree -/

/-- The store and the contract accept the same receipts, and receipts are read back from
their bytes as what they are, unless the request and the result name two source
transcripts. -/
theorem storeValidates_iff_contract (request : StoredOperationRequest)
    (result : StoredOperationResult) :
    ((∀ (commit : MeetingOperationCommit) (meeting : MeetingRecord) (meetingBytes : B),
        storeValidates request result commit meeting meetingBytes = .ok () ↔
          ContractAccepts request result commit meeting meetingBytes) ∧
      (request.validate = .ok () → parseRequest (request.canonicalBytes : B) = .ok request) ∧
      (result.validate = .ok () → parseResult (result.canonicalBytes : B) = .ok result) ∧
      ∀ bytes : B, ¬ (ReadsRestoration bytes ∧ ReadsNote bytes)) ↔
    ¬ NamesTwoSources request result := by
  constructor
  · intro h htwo
    obtain ⟨hagree, -⟩ := h
    cases request with
    | noteGeneration request => cases result <;> exact htwo
    | restoration request =>
      cases result with
      | noteGeneration result => exact htwo
      | restoration result =>
        obtain ⟨hrequest, hresult, hid, hmeeting, hsource⟩ := htwo
        have haccepts := contract_accepts_restoration (B := B) hrequest hresult hid hmeeting
        exact hsource (storeValidates_restoration.mp ((hagree _ _ _).mpr haccepts)).1
  · intro hsame
    refine ⟨fun commit meeting meetingBytes => ?_, parseRequest_canonicalBytes,
      parseResult_canonicalBytes, not_reads_both⟩
    cases request with
    | noteGeneration request =>
      cases result with
      | noteGeneration result => exact storeValidates_note
      | restoration result => exact iff_of_false (storeValidates_mixed rfl) id
    | restoration request =>
      cases result with
      | noteGeneration result => exact iff_of_false (storeValidates_mixed rfl) id
      | restoration result =>
        refine storeValidates_restoration.trans ⟨And.right, fun haccepts => ⟨?_, haccepts⟩⟩
        by_contra hsource
        apply hsame
        have hparts : validateRestorationReceipts request result commit meeting meetingBytes =
          .ok () := haccepts
        unfold validateRestorationReceipts at hparts
        simp only [check_bind_eq_ok, refuseIf_eq_ok, not_or, not_not] at hparts
        obtain ⟨hrequest, hresult, -, ⟨hid, -, hmeeting, -⟩, -⟩ := hparts
        exact ⟨hrequest, hresult, hid, hmeeting, hsource⟩

/-! ## Two sources -/

def sampleRestorationRequest : TranscriptRestorationRequest where
  schema := .v1
  operationId := sampleOperationId
  meetingId := sampleMeetingId
  requestedAtEpochSeconds := 1754000000
  sourceTranscriptSha256 := emptySha256
  sourceTurnIndex := 3
  priorNote := none

/-- A result for another transcript. -/
def sampleForeignResult : TranscriptRestorationResult where
  schema := .v1
  operationId := sampleOperationId
  meetingId := sampleMeetingId
  sourceTranscriptSha256 := sampleBaseSha256
  view := ⟨"transcript/" ++ sampleViewSha256 ++ ".json", sampleViewSha256⟩
  baseTranscriptSha256 := sampleBaseSha256
  parentTranscriptSha256 := sampleBaseSha256
  restoredSourceTurnIndices := [0]

end Validators

/-- The contract accepts a restoration of another transcript than the request's, and the
store does not. -/
theorem contract_accepts_foreign :
    ¬ (storeValidates (.restoration sampleRestorationRequest) (.restoration sampleForeignResult)
        (commitShowing SampleBytes sampleRestorationRequest sampleForeignResult)
        (meetingShowing SampleBytes sampleMeetingId sampleForeignResult.view)
        (toVecPretty (meetingShowing SampleBytes sampleMeetingId sampleForeignResult.view) :
          SampleBytes) = .ok () ↔
      ContractAccepts (.restoration sampleRestorationRequest) (.restoration sampleForeignResult)
        (commitShowing SampleBytes sampleRestorationRequest sampleForeignResult)
        (meetingShowing SampleBytes sampleMeetingId sampleForeignResult.view)
        (toVecPretty (meetingShowing SampleBytes sampleMeetingId sampleForeignResult.view) :
          SampleBytes)) := by
  intro h
  have haccepts := h.mpr (contract_accepts_restoration (by decide +kernel) (by decide +kernel) rfl rfl)
  exact absurd (storeValidates_restoration.mp haccepts).1 (by decide)

end YawnApp.SessionCore
