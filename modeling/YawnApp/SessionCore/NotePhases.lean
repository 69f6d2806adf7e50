/-
  SessionCore/NotePhases.lean --- the phases of a note generation.

  Accepted or rejected, with or without a note before: a result says where the
  record stands once it is published, and a record that stands there already is
  committed without being written.  The invariant `NoteRegeneration.Holds` says
  what the library looks like in each phase of an admitted generation.  From it
  follows, phase by phase, what the record is read as, how a recovery classifies
  it, and that the commit belongs to its receipts.
-/
import YawnApp.SessionCore.OperationPhases

set_option autoImplicit false

namespace YawnApp.SessionCore

open YawnApp.Foundation

variable {B : Type} [Platform B] [DecidableEq B]

/-! ## The inspector -/

/-- What the inspector of notes promises: it reads the note, its Markdown and
the transcript afresh, reports the digests of what it read, and answers by these
files alone. -/
structure InspectsFreshly
    (inspect : Reader B → Uuid → NoteRevisionRef → Except NoteArtifactError Digests) : Prop where
  note : ∀ (read : Reader B) id note digests, inspect read id note = .ok digests →
    verifyArtifactRef read ⟨"notes" ++ "/" ++ digests.at "note" ++ "." ++ "json",
      digests.at "note"⟩ = .ok ()
  markdown : ∀ (read : Reader B) id note digests, inspect read id note = .ok digests →
    verifyArtifactRef read ⟨"notes" ++ "/" ++ digests.at "note-markdown" ++ "." ++ "md",
      digests.at "note-markdown"⟩ = .ok ()
  kept : ∀ (old new : Files B) id note digests, old.KeepsArtifacts new →
    inspect old.reader id note = .ok digests → inspect new.reader id note = .ok digests

namespace NoteGenerationCoordinator

/-! ## What the checks of a result say -/

/-- What holds of a result that was stored for a request. -/
structure InspectedNote
    (inspect : Reader B → Uuid → NoteRevisionRef → Except NoteArtifactError Digests)
    (read : Reader B) (request : NoteGenerationRequest) (result : NoteGenerationResult) : Prop where
  validResult : result.validate = .ok ()
  matchesRequest : resultMatchesRequest (.noteGeneration request) (.noteGeneration result) = true
  accepted : result.status = .accepted → ∃ note digests, result.note = some note ∧
    inspect read request.meetingId note = .ok digests ∧
    validateNoteWorkerJoin digests request result = .ok ()

variable {rt : NoteGenerationRuntime B} {read : Reader B} {request : NoteGenerationRequest}
  {result : NoteGenerationResult} {meeting : MeetingRecord}

section

omit [Platform B] [DecidableEq B]

theorem InspectedNote.inspectStoredResult (h : InspectedNote rt.inspect read request result) :
    inspectStoredResult rt read request result = .ok () := by
  unfold NoteGenerationCoordinator.inspectStoredResult
  rw [h.validResult, mapError_ok, ok_bind]
  split
  · rename_i hstatus
    obtain ⟨note, digests, hnote, hinspect, hjoin⟩ := h.accepted hstatus
    rw [hnote, orRefuse_some, ok_bind, hinspect, mapError_ok, ok_bind, hjoin]
    rfl
  · rfl

/-- What the worker answered and the checks let pass can be stored. -/
theorem inspectedNote_of_worker {answer : NoteWorkerResult}
    (h : inspectWorkerResult rt read request answer = .ok result) :
    InspectedNote rt.inspect read request result := by
  cases answer with
  | accepted =>
    simp only [inspectWorkerResult, inspectAccepted, bind_eq_ok, mapError_eq_ok] at h
    obtain ⟨_, -, inspected, hinspect, _, hjoin, _, -, heq⟩ := h
    cases heq
    have hvalid := hjoin
    unfold validateNoteWorkerJoin at hvalid
    simp only [check_bind_eq_ok] at hvalid
    exact ⟨hvalid.2.2.1, by simp [resultMatchesRequest],
      fun _ => ⟨_, inspected, rfl, hinspect, hjoin⟩⟩
  | rejected =>
    simp only [inspectWorkerResult, inspectRejected, bind_eq_ok, mapError_eq_ok] at h
    obtain ⟨code, -, _, hjoin, heq⟩ := h
    cases heq
    unfold validateNoteWorkerFailureJoin at hjoin
    simp only [check_bind_eq_ok] at hjoin
    exact ⟨hjoin.2.1, by simp [resultMatchesRequest], by rintro ⟨⟩⟩

end

omit [DecidableEq B] in
theorem InspectedNote.mono {inspect} (hreads : InspectsFreshly (B := B) inspect) {old new : Files B}
    (hkeeps : old.KeepsArtifacts new) (h : InspectedNote inspect old.reader request result) :
    InspectedNote inspect new.reader request result := by
  refine ⟨h.validResult, h.matchesRequest, fun hstatus => ?_⟩
  obtain ⟨note, digests, hnote, hinspect, hjoin⟩ := h.accepted hstatus
  exact ⟨note, digests, hnote, hreads.kept old new _ _ _ hkeeps hinspect, hjoin⟩

section

omit [Platform B] [DecidableEq B]

theorem sourceTranscript_of_matches
    (h : resultMatchesRequest (.noteGeneration request) (.noteGeneration result) = true) :
    request.operationId = result.operationId ∧ request.meetingId = result.meetingId ∧
      request.sourceTranscriptSha256 = result.sourceTranscriptSha256 := by
  simp only [resultMatchesRequest, Bool.and_eq_true, beq_iff_eq] at h
  exact ⟨h.1.1, h.1.2, h.2⟩

/-- The note of an accepted result is a note of the request's transcript. -/
theorem InspectedNote.validNote {inspect} (h : InspectedNote (B := B) inspect read request result)
    {note : NoteRevisionRef} (hstatus : result.status = .accepted) (hnote : result.note = some note) :
    validateNoteOf note request.sourceTranscriptSha256
      "accepted note binds another transcript" = .ok () := by
  have hvalid := h.validResult
  unfold NoteGenerationResult.validate at hvalid
  rw [check_bind_eq_ok, hstatus, hnote] at hvalid
  rw [(sourceTranscript_of_matches h.matchesRequest).2.2]
  revert hvalid
  cases result.failureCode with
  | none => exact fun hvalid => hvalid.2
  | some => exact fun hvalid => by cases hvalid.2

end

omit [DecidableEq B] in
/-- The files of an accepted note are there, with the digests in their names. -/
theorem InspectedNote.artifacts {inspect} (hreads : InspectsFreshly (B := B) inspect)
    (h : InspectedNote inspect read request result) {note : NoteRevisionRef}
    (hstatus : result.status = .accepted) (hnote : result.note = some note) :
    verifyArtifactRef read note.json = .ok () ∧ verifyArtifactRef read note.markdown = .ok () := by
  obtain ⟨found, digests, hfound, hinspect, hjoin⟩ := h.accepted hstatus
  rw [hnote, Option.some.injEq] at hfound
  subst hfound
  have hvalid := h.validNote hstatus hnote
  unfold validateNoteOf validateNote NoteRevisionRef.validate ArtifactRef.validateDigestNamed
    validateRef at hvalid
  simp only [check_bind_eq_ok, mapError_eq_ok, refuseIf_eq_ok, not_not] at hvalid
  obtain ⟨⟨⟨-, hjson, -⟩, ⟨-, hmarkdown, -⟩, -⟩, -⟩ := hvalid
  unfold validateNoteWorkerJoin at hjoin
  simp only [check_bind_eq_ok, hnote, orRefuse_some, ok_bind, refuseIf_eq_ok, not_or,
    not_not] at hjoin
  obtain ⟨-, -, -, -, -, -, -, hdigest, hdigest', -⟩ := hjoin
  have hnotefile := hreads.note read _ _ _ hinspect
  have hmarkdownfile := hreads.markdown read _ _ _ hinspect
  rw [hdigest, ← hjson] at hnotefile
  rw [hdigest', ← hmarkdown] at hmarkdownfile
  exact ⟨hnotefile, hmarkdownfile⟩

/-! ## The record that publishes a result -/

/-- The lifecycle once the result of a request is published. -/
def publishedLifecycle (request : NoteGenerationRequest) (result : NoteGenerationResult) :
    MeetingLifecycle :=
  match result.status, request.priorNote with
  | .rejected, none => .summaryFailed
  | _, _ => .ready

/-- Publishing changes the lifecycle and the current note and nothing else. -/
theorem publishedMeeting_eq (request : NoteGenerationRequest) (meeting : MeetingRecord)
    (result : NoteGenerationResult) :
    publishedMeeting request meeting result =
      { meeting with
        lifecycle := publishedLifecycle request result
        artifacts := { meeting.artifacts with currentNote := publishedNote request result } } := by
  unfold publishedMeeting publishedLifecycle publishedNote
  cases result.status <;> cases request.priorNote <;> rfl

/-- Publishing again changes nothing. -/
theorem publishedMeeting_idem (request : NoteGenerationRequest) (meeting : MeetingRecord)
    (result : NoteGenerationResult) :
    publishedMeeting request (publishedMeeting request meeting result) result =
      publishedMeeting request meeting result := by
  rw [publishedMeeting_eq, publishedMeeting_eq]

omit [Platform B] [DecidableEq B] in
/-- The two outcomes a record can show: a note of the request's transcript, or
no note. -/
theorem published_cases {inspect} (hrequest : request.validate = .ok ())
    (h : InspectedNote (B := B) inspect read request result) :
    (∃ note, publishedNote request result = some note ∧ publishedLifecycle request result = .ready ∧
        note.validate = .ok () ∧
        note.sourceTranscriptSha256 = request.sourceTranscriptSha256) ∨
      (publishedNote request result = none ∧
        publishedLifecycle request result = .summaryFailed ∧ result.status = .rejected) := by
  have hnoteOf : ∀ {note detail},
      validateNoteOf note request.sourceTranscriptSha256 detail = .ok () → note.validate = .ok () ∧
        note.sourceTranscriptSha256 = request.sourceTranscriptSha256 := by
    intro note detail hvalid
    unfold validateNoteOf validateNote at hvalid
    simpa only [check_bind_eq_ok, mapError_eq_ok, refuseIf_eq_ok, not_not] using hvalid
  unfold publishedNote publishedLifecycle
  cases hstatus : result.status with
  | accepted =>
    obtain ⟨note, digests, hnote, -, -⟩ := h.accepted hstatus
    exact .inl ⟨note, hnote, rfl, hnoteOf (h.validNote hstatus hnote)⟩
  | rejected =>
    cases hprior : request.priorNote with
    | none => exact .inr ⟨rfl, rfl, rfl⟩
    | some prior =>
      unfold NoteGenerationRequest.validate at hrequest
      simp only [check_bind_eq_ok, hprior] at hrequest
      obtain ⟨-, -, -, -, -, hnote⟩ := hrequest
      refine .inl ⟨prior, rfl, rfl, ?_⟩
      split at hnote
      · cases hnote
      · rename_i heq _
        cases heq
        exact hnoteOf hnote
      · rename_i heq
        cases heq

/-- Whether a result is applied is whether publishing it changes nothing. -/
theorem resultIsApplied_iff :
    resultIsApplied request result meeting.lifecycle meeting.artifacts.currentNote = true ↔
      publishedMeeting request meeting result = meeting := by
  have hsame : publishedMeeting request meeting result = meeting ↔
      meeting.lifecycle = publishedLifecycle request result ∧
        meeting.artifacts.currentNote = publishedNote request result := by
    rw [publishedMeeting_eq]
    constructor
    · intro heq
      exact ⟨(congrArg MeetingRecord.lifecycle heq).symm,
        (congrArg (fun m => m.artifacts.currentNote) heq).symm⟩
    · rintro ⟨hlifecycle, hnote⟩
      rw [← hlifecycle, ← hnote]
  rw [hsame]
  unfold resultIsApplied publishedLifecycle publishedNote
  cases result.status <;> cases request.priorNote <;> simp

omit [Platform B] [DecidableEq B] in
theorem canGenerate_cases {lifecycle : MeetingLifecycle} {note : Option NoteRevisionRef}
    (h : canGenerate note lifecycle = true) : MeetingRecord.HasTranscript lifecycle := by
  unfold MeetingRecord.HasTranscript
  cases note <;> cases lifecycle <;> simp [canGenerate] at h ⊢

omit [DecidableEq B] in
theorem publishedMeeting_valid {inspect} {directoryId : String}
    (hvalid : meeting.validate B directoryId = .ok ())
    (hpending : meeting.pendingStorageOperation = none)
    (hcurrent : meeting.artifacts.currentTranscript.map ArtifactRef.sha256 =
      some request.sourceTranscriptSha256)
    (hlifecycle : canGenerate meeting.artifacts.currentNote meeting.lifecycle = true)
    (hrequest : request.validate = .ok ())
    (hresult : InspectedNote (B := B) inspect read request result) :
    (publishedMeeting request meeting result).validate B directoryId = .ok () := by
  rw [MeetingRecord.validate_eq_ok] at hvalid ⊢
  have hcases := canGenerate_cases hlifecycle
  obtain ⟨hcomplete, hownership⟩ := hvalid.completeCapture hcases
  have htranscript : meeting.artifacts.currentTranscript.isSome = true := by
    cases h : meeting.artifacts.currentTranscript with
    | none => rw [h] at hcurrent; cases hcurrent
    | some => rfl
  have hreferences := hvalid.references
  unfold MeetingRecord.validateReferences at hreferences
  simp only [check_bind_eq_ok] at hreferences
  obtain ⟨-, -, -, -, -, hcurrentRef, -⟩ := hreferences
  rw [publishedMeeting_eq]
  rcases published_cases hrequest hresult with ⟨note, hnote, hready, hnoteValid, hsource⟩ |
    ⟨hnone, hfailed, -⟩
  · rw [hnote, hready]
    refine hvalid.derived hpending hcases (.inl rfl) hcurrentRef hnoteValid ?_
    unfold MeetingRecord.validateLifecycle
    simp only [check_bind_eq_ok, refuseIf_eq_ok, not_or, not_not]
    exact ⟨⟨hcomplete, htranscript, rfl, hownership⟩, by rw [hcurrent, ← hsource]; rfl⟩
  · rw [hnone, hfailed]
    refine hvalid.derived hpending hcases (.inr (.inr rfl)) hcurrentRef rfl ?_
    unfold MeetingRecord.validateLifecycle
    simp only [refuseIf_eq_ok, not_or, not_not]
    exact ⟨hcomplete, htranscript, by simp, hownership⟩

omit [Platform B] [DecidableEq B] in
/-- The record that publishes a result points to the note it publishes and
otherwise only to what the record before pointed to. -/
theorem references_publishedMeeting {r : ArtifactRef}
    (h : r ∈ (publishedMeeting request meeting result).references) :
    r ∈ meeting.references ∨ ∃ note, publishedNote request result = some note ∧
      (r = note.json ∨ r = note.markdown) := by
  rw [publishedMeeting_eq] at h
  unfold MeetingRecord.references audioReferences at h ⊢
  simp only [List.mem_append, List.mem_flatMap, Option.mem_toList, List.mem_pair] at h ⊢
  grind

/-! ## The invariant -/

end NoteGenerationCoordinator

variable (B) in
/-- A note generation: its request, the record and files it found, and the
inspector its notes are read with. -/
structure NoteRegeneration where
  request : NoteGenerationRequest
  meeting : MeetingRecord
  files : Files B
  inspect : Reader B → Uuid → NoteRevisionRef → Except NoteArtifactError Digests

namespace NoteRegeneration

open NoteGenerationCoordinator

/-- The checks an admitted request passed, on a record as `write_meeting` leaves
it. -/
structure Admitted (c : NoteRegeneration B) : Prop where
  request : c.request.validate = .ok ()
  record : c.files "meeting.json" = some (toVecPretty c.meeting)
  valid : c.meeting.validate B c.request.meetingId.text = .ok ()
  artifacts : verifyRecordArtifacts c.files.reader c.meeting = .ok ()
  source : requireSource c.meeting c.request.meetingId c.request.sourceTranscriptSha256 = .ok ()
  priorNote : c.request.priorNote = c.meeting.artifacts.currentNote
  reads : InspectsFreshly c.inspect

/-- The record in each phase. -/
def record (c : NoteRegeneration B) : OperationPhase NoteGenerationResult → MeetingRecord
  | .requested | .resulted _ => c.meeting
  | .published result | .committed result _ => publishedMeeting c.request c.meeting result

/-- The library shows a phase of the generation. -/
structure Holds (c : NoteRegeneration B) (phase : OperationPhase NoteGenerationResult)
    (lib : Library B) : Prop where
  stored : phase.Stored (.noteGeneration c.request) .noteGeneration lib.operations
  artifacts : c.files.KeepsArtifacts (lib.meetings c.request.meetingId)
  record : lib.meetings c.request.meetingId "meeting.json" = some (toVecPretty (c.record phase))
  result : ∀ result, phase.result? = some result →
    InspectedNote c.inspect (lib.reader c.request.meetingId) c.request result
  commit : ∀ result commit, phase = .committed result commit → commit.validate = .ok () ∧
    validateNoteReceipts c.request result commit (publishedMeeting c.request c.meeting result)
      (toVecPretty (publishedMeeting c.request c.meeting result) : B) = .ok ()

/-- Work on other meetings keeps the phase. -/
theorem Holds.of_leavesAlone {c : NoteRegeneration B}
    {phase : OperationPhase NoteGenerationResult} {old new : Library B}
    (h : c.Holds phase old) (hleaves : old.LeavesAlone c.request.meetingId new) :
    c.Holds phase new := by
  obtain ⟨hmeeting, hreceipts⟩ := hleaves
  refine ⟨⟨?_, fun other s hs hpending hs' => ?_⟩, hmeeting ▸ h.artifacts, hmeeting ▸ h.record, ?_,
    h.commit⟩
  · refine (hreceipts _ _ ?_).mpr h.stored.receipt
    rw [OperationPhase.receipt_request]
    rfl
  · exact h.stored.sole other s ((hreceipts other s hs').mp hs) hpending hs'
  · unfold Library.reader
    rw [hmeeting]
    exact h.result

/-- The transcript a request starts from, as the record points to it. -/
def sourceRef (c : NoteRegeneration B) : ArtifactRef :=
  ⟨revisionPath c.request.sourceTranscriptSha256, c.request.sourceTranscriptSha256⟩

/-- What an admitted request says about the record it found. -/
structure Found (c : NoteRegeneration B) : Prop where
  pending : c.meeting.pendingStorageOperation = none
  meetingId : c.meeting.meetingId = c.request.meetingId.text
  current : c.meeting.artifacts.currentTranscript = some c.sourceRef
  lifecycle : canGenerate c.meeting.artifacts.currentNote c.meeting.lifecycle = true

omit [DecidableEq B] in
theorem Admitted.found {c : NoteRegeneration B} (h : c.Admitted) : c.Found := by
  have hsource := h.source
  unfold requireSource requireNoPendingStorage requireCurrentTranscript at hsource
  simp only [bind_eq_ok, refuseIf_eq_ok, orRefuse_eq_ok, not_or, not_not] at hsource
  obtain ⟨_, hpending, _, hid, ⟨path, sha⟩, hcurrent, _, ⟨hsha, hpath⟩, hlifecycle⟩ := hsource
  simp only at hsha hpath
  subst hsha hpath
  exact ⟨by simpa using hpending, hid, hcurrent, by simpa using hlifecycle⟩

omit [DecidableEq B] in
theorem Admitted.published_valid {c : NoteRegeneration B} (h : c.Admitted) {read : Reader B}
    {result : NoteGenerationResult} (hresult : InspectedNote c.inspect read c.request result) :
    (publishedMeeting c.request c.meeting result).validate B c.request.meetingId.text = .ok () :=
  publishedMeeting_valid h.valid h.found.pending (by rw [h.found.current]; rfl) h.found.lifecycle
    h.request hresult

/-! ## What the checks find in each phase -/

section Checks

variable {c : NoteRegeneration B} {phase : OperationPhase NoteGenerationResult} {lib : Library B}
  {result : NoteGenerationResult}

/-- The record of each phase is valid. -/
theorem Holds.valid (hlib : c.Holds phase lib) (h : c.Admitted) :
    (c.record phase).validate B c.request.meetingId.text = .ok () := by
  cases phase with
  | requested | resulted => exact h.valid
  | published result | committed result => exact h.published_valid (hlib.result result rfl)

omit [DecidableEq B] in
/-- A published result points to files that are there. -/
theorem verifyRecordArtifacts_published (h : c.Admitted)
    (hkeeps : c.files.KeepsArtifacts (lib.meetings c.request.meetingId))
    (hresult : InspectedNote c.inspect (lib.reader c.request.meetingId) c.request result) :
    verifyRecordArtifacts (lib.reader c.request.meetingId)
      (publishedMeeting c.request c.meeting result) = .ok () := by
  have hlifecycle : c.meeting.lifecycle ≠ .recoveredInterrupted := by
    rcases canGenerate_cases h.found.lifecycle with hl | hl | hl <;> rw [hl] <;> decide
  have hpublished : (publishedMeeting c.request c.meeting result).lifecycle ≠
      .recoveredInterrupted := by
    rw [publishedMeeting_eq]
    rcases published_cases h.request hresult with ⟨_, -, hl, -⟩ | ⟨-, hl, -⟩ <;> simp only [hl] <;>
      decide
  have hartifacts := verifyRecordArtifacts_mono
    ((MeetingRecord.validate_eq_ok B _ _).mp h.valid) hlifecycle hkeeps h.artifacts
  rw [verifyRecordArtifacts_eq_ok hlifecycle] at hartifacts
  rw [verifyRecordArtifacts_eq_ok hpublished]
  intro r hr
  rcases references_publishedMeeting hr with hr | ⟨note, hnote, hr⟩
  · exact hartifacts r hr
  -- the note is the result's, or the one the record pointed to before
  · unfold publishedNote at hnote
    cases hstatus : result.status with
    | accepted =>
      rw [hstatus] at hnote
      have hfiles := hresult.artifacts h.reads hstatus hnote
      rcases hr with rfl | rfl
      · exact hfiles.1
      · exact hfiles.2
    | rejected =>
      simp only [hstatus, h.priorNote] at hnote
      apply hartifacts r
      unfold MeetingRecord.references
      simp only [List.mem_append, List.mem_flatMap, Option.mem_toList, List.mem_pair]
      exact .inl (.inl (.inr ⟨note, hnote, hr⟩))

/-- In each phase the meeting is read as its record. -/
theorem Holds.load (hlib : c.Holds phase lib) (h : c.Admitted) :
    loadAndVerifyMeeting (lib.reader c.request.meetingId) c.request.meetingId =
      .ok (c.record phase) := by
  have hlifecycle : c.meeting.lifecycle ≠ .recoveredInterrupted := by
    rcases canGenerate_cases h.found.lifecycle with hl | hl | hl <;> rw [hl] <;> decide
  have hload : loadMeeting (lib.reader c.request.meetingId) c.request.meetingId.text =
      .ok (c.record phase) := loadMeeting_of_written (hlib.valid h) hlib.record
  have hartifacts : verifyRecordArtifacts (lib.reader c.request.meetingId) (c.record phase) =
      .ok () := by
    have hfound := verifyRecordArtifacts_mono
      ((MeetingRecord.validate_eq_ok B _ _).mp h.valid) hlifecycle hlib.artifacts h.artifacts
    cases phase with
    | requested | resulted => exact hfound
    | published result | committed result =>
      exact verifyRecordArtifacts_published h hlib.artifacts (hlib.result result rfl)
  unfold loadAndVerifyMeeting
  rw [hload, mapError_ok, ok_bind, hartifacts]
  rfl

section

omit [Platform B] [DecidableEq B]

theorem record_pending (h : c.Found) : (c.record phase).pendingStorageOperation = none := by
  cases phase <;> simp only [record, publishedMeeting_eq] <;> exact h.pending

theorem record_current (h : c.Found) :
    (c.record phase).artifacts.currentTranscript = some c.sourceRef := by
  cases phase <;> simp only [record, publishedMeeting_eq] <;> exact h.current

end

/-- The checks every resumption starts with. -/
theorem Holds.resumable (hlib : c.Holds phase lib) (h : c.Admitted) :
    resumableMeeting (lib.reader c.request.meetingId) c.request =
      .ok (c.record phase, c.sourceRef) := by
  unfold resumableMeeting requireCurrentTranscript
  rw [hlib.load h, ok_bind,
    show requireNoPendingStorage (c.record phase) = .ok () from
      refuseIf_of_not (by simp [record_pending h.found]), ok_bind, record_current h.found,
    orRefuse_some, ok_bind]
  rfl

omit [DecidableEq B] in
/-- The record a request found is where its source stood. -/
theorem Admitted.sourceStateMatches (h : c.Admitted) :
    sourceStateMatches c.request.sourceTranscriptSha256 c.request.priorNote c.meeting.lifecycle
      c.request.sourceTranscriptSha256 c.meeting.artifacts.currentNote = true := by
  have hlifecycle := h.found.lifecycle
  unfold SessionCore.sourceStateMatches
  rw [h.priorNote]
  cases hnote : c.meeting.artifacts.currentNote <;> cases hl : c.meeting.lifecycle <;>
    simp [canGenerate, hnote, hl] at hlifecycle ⊢

omit [Platform B] [DecidableEq B] in
theorem validateDigest_source {request : NoteGenerationRequest} (h : request.validate = .ok ()) :
    validateDigest request.sourceTranscriptSha256 = .ok () := by
  unfold NoteGenerationRequest.validate at h
  simp only [check_bind_eq_ok] at h
  exact h.2.1

section

omit [DecidableEq B]

/-- A request without a result is retried. -/
theorem classify_requested (h : c.Admitted) :
    classify c.request none c.meeting c.sourceRef = .ok .retryRequest := by
  unfold classify classifyNoteRecovery sourceRef
  simp only [h.request, validateDigest_source h.request, ok_bind, h.sourceStateMatches]
  rfl

/-- A result is applied unless the record stands where it puts it. -/
theorem classify_resulted (h : c.Admitted) {read : Reader B}
    (hresult : InspectedNote c.inspect read c.request result) :
    classify c.request (some result) c.meeting c.sourceRef =
      .ok (if publishedMeeting c.request c.meeting result = c.meeting then .writeMissingCommit
        else .applyValidatedResult) := by
  have hmatch := sourceTranscript_of_matches hresult.matchesRequest
  unfold classify classifyNoteRecovery sourceRef
  simp only [h.request, validateDigest_source h.request, hresult.validResult, ok_bind,
    h.sourceStateMatches]
  rw [refuseIf_of_not (by simp [hmatch]), ok_bind]
  simp only [← resultIsApplied_iff, true_and, if_true]
  split <;> rfl

/-- A published result lacks its commit. -/
theorem classify_published (h : c.Admitted) {read : Reader B}
    (hresult : InspectedNote c.inspect read c.request result) :
    classify c.request (some result) (publishedMeeting c.request c.meeting result) c.sourceRef =
      .ok .writeMissingCommit := by
  have hmatch := sourceTranscript_of_matches hresult.matchesRequest
  have happlied := resultIsApplied_iff.mpr (publishedMeeting_idem c.request c.meeting result)
  unfold classify classifyNoteRecovery sourceRef
  simp only [h.request, validateDigest_source h.request, hresult.validResult, ok_bind, happlied]
  rw [refuseIf_of_not (by simp [hmatch]), ok_bind]
  rfl

end

end Checks

/-! ## The commit -/

section Commit

variable {c : NoteRegeneration B} {read : Reader B} {result : NoteGenerationResult}
  {committedAt : UInt64}

/-- The commit of a result that is published. -/
def commitOf (c : NoteRegeneration B) (committedAt : UInt64) (result : NoteGenerationResult) :
    MeetingOperationCommit :=
  terminalCommit committedAt c.request result (publishedMeeting c.request c.meeting result)
    c.sourceRef (toVecPretty (publishedMeeting c.request c.meeting result) : B)

omit [Platform B] [DecidableEq B] in
theorem commitOf_coherent (h : c.request.validate = .ok ())
    (hresult : InspectedNote c.inspect read c.request result) :
    commitCoherent .generateNote result.status.outcome (publishedLifecycle c.request result)
      (publishedNote c.request result).isSome = true := by
  rcases published_cases h hresult with ⟨note, hnote, hready, -⟩ | ⟨hnone, hfailed, hstatus⟩
  · rw [hnote, hready]
    cases result.status <;> rfl
  · rw [hnone, hfailed, hstatus]
    rfl

omit [DecidableEq B] in
theorem commitOf_valid (h : c.request.validate = .ok ())
    (hresult : InspectedNote c.inspect read c.request result) (htime : committedAt ≠ 0) :
    (c.commitOf committedAt result).validate = .ok () := by
  have hsource := validateDigest_source h
  unfold MeetingOperationCommit.validate commitOf terminalCommit
  rw [publishedMeeting_eq]
  simp only [check_bind_eq_ok, refuseIf_eq_ok, validateDigest, digestPretty,
    Platform.validSha256_sha256, not_not]
  simp only [validateDigest, refuseIf_eq_ok, not_not] at hsource
  refine ⟨trivial, trivial, trivial, hsource, htime, ?_, commitOf_coherent h hresult⟩
  rcases published_cases h hresult with ⟨note, hnote, -, hvalid, hbinds⟩ | ⟨hnone, -, -⟩
  · rw [hnote, checkSome_some]
    unfold validateNoteOf validateNote
    rw [hvalid, mapError_ok, ok_bind]
    exact refuseIf_of_not (by simp [hbinds, sourceRef])
  · rw [hnone, checkSome_none]

omit [DecidableEq B] in
theorem commitOf_matches : commitMatchesReceipts B (.noteGeneration c.request)
    (.noteGeneration result) (c.commitOf committedAt result) = true := by
  cases hstatus : result.status <;>
    simp [commitMatchesReceipts, commitOf, terminalCommit, digestPretty, hstatus,
      StoredOperationRequest.canonicalBytes, StoredOperationResult.canonicalBytes,
      NoteGenerationStatus.outcome, sourceRef, publishedMeeting_eq]

theorem commitOf_meeting (h : c.Admitted)
    (hresult : InspectedNote c.inspect read c.request result) (htime : committedAt ≠ 0) :
    validateCommitMeeting (c.commitOf committedAt result)
      (publishedMeeting c.request c.meeting result)
      (toVecPretty (publishedMeeting c.request c.meeting result) : B) = .ok () := by
  have hfound := h.found
  unfold validateCommitMeeting
  rw [commitOf_valid h.request hresult htime, ok_bind,
    show (c.commitOf committedAt result).meetingId = c.request.meetingId from rfl,
    h.published_valid hresult, mapError_ok, ok_bind, fromSlice_toVecPretty, orRefuse_some, ok_bind]
  simp [publishedMeeting_eq, commitOf, terminalCommit, hfound.pending, hfound.meetingId,
    hfound.current]

/-- Request, result and commit are one operation. -/
theorem commitOf_receipts (h : c.Admitted)
    (hresult : InspectedNote c.inspect read c.request result) (htime : committedAt ≠ 0) :
    validateNoteReceipts c.request result (c.commitOf committedAt result)
      (publishedMeeting c.request c.meeting result)
      (toVecPretty (publishedMeeting c.request c.meeting result) : B) = .ok () := by
  have hmatch := sourceTranscript_of_matches hresult.matchesRequest
  unfold validateNoteReceipts
  rw [h.request, ok_bind, hresult.validResult, ok_bind, commitOf_valid h.request hresult htime,
    ok_bind, refuseIf_of_not
      (by simp [hmatch, commitOf, terminalCommit, publishedMeeting_eq, sourceRef]), ok_bind]
  exact commitOf_meeting h hresult htime

end Commit

end NoteRegeneration

end YawnApp.SessionCore
