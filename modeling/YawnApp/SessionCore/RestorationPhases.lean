/-
  SessionCore/RestorationPhases.lean --- the phases of a restoration.

  What the checks of a restoration result say, what the record that publishes
  it points to, and the invariant `Restoration.Holds`: what the library looks
  like in each phase of an admitted restoration.  From it follows, phase by
  phase, what the record is read as, how a recovery classifies it, and that the
  commit belongs to its receipts.
-/
import YawnApp.SessionCore.OperationPhases

set_option autoImplicit false

namespace YawnApp.SessionCore

open YawnApp.Foundation

variable {B : Type} [Platform B] [DecidableEq B]

namespace TranscriptRestorationCoordinator

/-! ## What the checks of a result say -/

theorem insertionSort_mem_append {indices : List UInt32} {i : UInt32} :
    i ∈ (indices ++ [i]).insertionSort (· ≤ ·) := by
  rw [List.mem_insertionSort]
  simp

variable {request : TranscriptRestorationRequest} {result : TranscriptRestorationResult}

omit [DecidableEq B] in
/-- A view that joins a request shows the requested turn. -/
theorem validateRestorationJoin_eq_ok {parent : Option TranscriptView} {view : TranscriptView}
    (h : validateRestorationJoin B request parent view result = .ok ()) :
    request.validate = .ok () ∧ result.validate = .ok () ∧
      resultMatchesRequest (.restoration request) (.restoration result) = true ∧
      view.parentTranscriptSha256 = request.sourceTranscriptSha256 ∧
      view.restoredSourceTurnIndices = result.restoredSourceTurnIndices ∧
      request.sourceTurnIndex ∈ view.restoredSourceTurnIndices := by
  unfold validateRestorationJoin at h
  simp only [check_bind_eq_ok, refuseIf_eq_ok, not_or, not_not] at h
  obtain ⟨hrequest, -, hresult, ⟨hid, -, hmeeting, hsource, hparent, -, -, hindices, -⟩, hrest⟩ := h
  rw [bind_eq_ok] at hrest
  obtain ⟨restored, -, hsorted⟩ := hrest
  rw [refuseIf_eq_ok, not_not] at hsorted
  refine ⟨hrequest, hresult, ?_, hparent.symm, hindices, ?_⟩
  · simp [resultMatchesRequest, hid, hmeeting, hsource]
  · rw [← hsorted]
    exact insertionSort_mem_append

/-- What holds of a result that passed `inspect_stored_result`. -/
structure InspectedResult (read : Reader B) (request : TranscriptRestorationRequest)
    (result : TranscriptRestorationResult) : Prop where
  validRequest : request.validate = .ok ()
  validResult : result.validate = .ok ()
  matchesRequest : resultMatchesRequest (.restoration request) (.restoration result) = true
  fits : ByteString.size (toVecPretty result : B) ≤ maxReceiptBytes
  successor : result.view.sha256 ≠ request.sourceTranscriptSha256
  view : verifyArtifactRef read result.view = .ok ()

theorem inspectStoredResult_eq_ok {read : Reader B}
    (h : inspectStoredResult read request result = .ok ()) :
    InspectedResult read request result := by
  unfold inspectStoredResult at h
  simp only [bind_eq_ok, mapError_eq_ok, orRefuse_eq_ok, refuseIf_eq_ok, not_or, not_not] at h
  obtain ⟨source, -, successor, hsuccessor, _, ⟨-, hdigest⟩, view, hview, _, hjoin, -, hrestored, -⟩ := h
  obtain ⟨hrequest, hresult, hmatch, hparent, hindices, -⟩ := validateRestorationJoin_eq_ok hjoin
  have hsound := inspectRevision_sound hsuccessor
  obtain ⟨-, -, -, hparent', -, hshown, -⟩ := hsound.view view hview
  obtain ⟨hcount, hbounded⟩ := hsound.bounded
  refine ⟨hrequest, hresult, hmatch, ?_, ?_, ?_⟩
  · rw [hrestored] at hcount hbounded
    exact (size_toVecPretty result).trans_le (result.prettySize_le hresult hcount hbounded)
  · rw [← hdigest, ← hparent]
    exact fun heq => hparent' heq.symm
  · obtain ⟨bytes, hbytes⟩ := hsound.stored
    have hnamed : result.view.validateDigestNamed "transcript" "json" = .ok () := by
      unfold TranscriptRestorationResult.validate at hresult
      simp only [check_bind_eq_ok, mapError_eq_ok] at hresult
      exact hresult.2.2.2.1
    unfold ArtifactRef.validateDigestNamed validateSha256 validateRef at hnamed
    simp only [check_bind_eq_ok, refuseIf_eq_ok, not_not] at hnamed
    obtain ⟨hsha, hpath, -⟩ := hnamed
    rw [hdigest] at hbytes
    unfold readRevision readBounded at hbytes
    simp only [bind_eq_ok, mapError_eq_ok] at hbytes
    obtain ⟨_, -, found, ⟨found', hfound, -, -, heq⟩, _, hsame, heq'⟩ := hbytes
    cases heq
    cases heq'
    rw [refuseIf_eq_ok, not_not] at hsame
    unfold verifyArtifactRef hashArtifact
    rw [hpath, ← revisionPath_eq, hfound]
    have hsafe : isSafeArtifactPath (revisionPath result.view.sha256) = true := by
      rw [revisionPath_eq]
      exact isSafeArtifactPath_digestNamed (by decide) (by decide) hsha (by decide)
    rw [refuseIf_of_not (by simp [hsafe]), ok_bind, ok_bind]
    exact refuseIf_of_not (by simp [hsame])

/-- An answer of the worker that is accepted is a result that can be stored. -/
theorem inspectStoredResult_of_worker {read : Reader B} {source : InspectedTranscriptRevision}
    {digests : Digests}
    (hsource : inspectRevision read request.meetingId request.sourceTranscriptSha256 = .ok source)
    (h : inspectWorkerResult read request source digests = .ok result) :
    inspectStoredResult read request result = .ok () := by
  unfold inspectWorkerResult at h
  simp only [bind_eq_ok, mapError_eq_ok, orRefuse_eq_ok] at h
  obtain ⟨_, -, successor, hsuccessor, _, hdigest, view, hview, _, hjoin, heq⟩ := h
  rw [refuseIf_eq_ok, not_not] at hdigest
  cases heq
  unfold validateRestoreWorkerJoin at hjoin
  simp only [check_bind_eq_ok] at hjoin
  obtain ⟨-, hjoin, -⟩ := hjoin
  obtain ⟨-, -, -, -, -, hturn⟩ := validateRestorationJoin_eq_ok hjoin
  obtain ⟨-, -, -, -, -, -, hsubset⟩ := (inspectRevision_sound hsuccessor).view view hview
  have hwithheld := hsubset (List.mem_toFinset.mpr hturn)
  rw [← hdigest] at hsuccessor
  unfold inspectStoredResult
  simp only [bind_eq_ok, mapError_eq_ok, orRefuse_eq_ok, refuseIf_eq_ok, not_or, not_not]
  exact ⟨source, hsource, successor, hsuccessor, (), ⟨inspectRevision_digest hsource, rfl⟩, view,
    hview, (), hjoin, rfl, rfl, hwithheld⟩

/-- A result is accepted again where the revisions are read again. -/
theorem inspectStoredResult_of_inspect {old new : Reader B} (hrevision : ∀ digest x,
      inspectRevision old request.meetingId digest = .ok x →
        inspectRevision new request.meetingId digest = .ok x)
    (h : inspectStoredResult old request result = .ok ()) :
    inspectStoredResult new request result = .ok () := by
  unfold inspectStoredResult at h ⊢
  simp only [bind_eq_ok, mapError_eq_ok] at h ⊢
  obtain ⟨source, hsource, successor, hsuccessor, hrest⟩ := h
  exact ⟨source, hrevision _ _ hsource, successor, hrevision _ _ hsuccessor, hrest⟩

theorem inspectStoredResult_mono {old new : Files B} (hkeeps : old.KeepsArtifacts new)
    (h : inspectStoredResult old.reader request result = .ok ()) :
    inspectStoredResult new.reader request result = .ok () :=
  inspectStoredResult_of_inspect (fun _ _ hx => inspectRevision_keeps hkeeps hx) h

/-! ## The record that publishes a result -/

omit [Platform B] [DecidableEq B] in
theorem lifecycleAccepts_cases {lifecycle : MeetingLifecycle} {note : Option NoteRevisionRef}
    (h : lifecycleAccepts lifecycle note = true) :
    lifecycle = .ready ∨ lifecycle = .transcriptReady ∨ lifecycle = .summaryFailed := by
  cases lifecycle <;> simp [lifecycleAccepts] at h ⊢

omit [DecidableEq B] in
theorem publishedMeeting_valid {meeting : MeetingRecord} {directoryId : String}
    (hvalid : meeting.validate B directoryId = .ok ())
    (hpending : meeting.pendingStorageOperation = none)
    (hlifecycle : lifecycleAccepts meeting.lifecycle meeting.artifacts.currentNote = true)
    (hresult : result.validate = .ok ()) :
    (publishedMeeting meeting result).validate B directoryId = .ok () := by
  rw [MeetingRecord.validate_eq_ok] at hvalid ⊢
  have hcases := lifecycleAccepts_cases hlifecycle
  obtain ⟨hcomplete, hownership⟩ := hvalid.completeCapture hcases
  have hview : result.view.validateDigestNamed "transcript" "json" = .ok () := by
    unfold TranscriptRestorationResult.validate at hresult
    simp only [check_bind_eq_ok, mapError_eq_ok] at hresult
    exact hresult.2.2.2.1
  refine hvalid.derived hpending hcases (.inr (.inl rfl)) hview rfl ?_
  refine refuseIf_of_not ?_
  simp only [not_or, not_not]
  exact ⟨hcomplete, rfl, by simp, hownership⟩

omit [Platform B] [DecidableEq B] in
/-- The record that publishes a result points to its view and otherwise only to
what the record before pointed to. -/
theorem references_publishedMeeting {meeting : MeetingRecord} {r : ArtifactRef}
    (h : r ∈ (publishedMeeting meeting result).references) :
    r ∈ meeting.references ∨ r = result.view := by
  unfold MeetingRecord.references at h ⊢
  simp only [publishedMeeting, audioReferences, List.mem_append, Option.toList_some,
    Option.toList_none, List.flatMap_nil, List.not_mem_nil, or_false, List.mem_singleton] at h ⊢
  tauto

/-! ## The invariant -/

end TranscriptRestorationCoordinator

variable (B) in
/-- A restoration: its request, and the record and files it found. -/
structure Restoration where
  request : TranscriptRestorationRequest
  meeting : MeetingRecord
  files : Files B

namespace Restoration

open TranscriptRestorationCoordinator

/-- The checks an admitted request passed. -/
structure Admitted (c : Restoration B) : Prop where
  request : c.request.validate = .ok ()
  record : loadMeeting c.files.reader c.request.meetingId.text = .ok c.meeting
  artifacts : verifyRecordArtifacts c.files.reader c.meeting = .ok ()
  source : ∃ source, requireCurrentSource c.files.reader c.meeting c.request.meetingId
    c.request.sourceTranscriptSha256 c.request.sourceTurnIndex (some c.request.priorNote) =
      .ok source

/-- The record in each phase. -/
def record (c : Restoration B) : OperationPhase TranscriptRestorationResult → Option B
  | .requested | .resulted _ => c.files "meeting.json"
  | .published result | .committed result _ =>
    some (toVecPretty (publishedMeeting c.meeting result))

/-- The library shows a phase of the restoration. -/
structure Holds (c : Restoration B) (phase : OperationPhase TranscriptRestorationResult)
    (lib : Library B) : Prop where
  stored : phase.Stored (.restoration c.request) .restoration lib.operations
  artifacts : c.files.KeepsArtifacts (lib.meetings c.request.meetingId)
  record : lib.meetings c.request.meetingId "meeting.json" = c.record phase
  result : ∀ result, phase.result? = some result →
    inspectStoredResult (lib.reader c.request.meetingId) c.request result = .ok ()
  commit : ∀ result commit, phase = .committed result commit →
    validateRestorationReceipts c.request result commit (publishedMeeting c.meeting result)
      (toVecPretty (publishedMeeting c.meeting result) : B) = .ok ()

/-- Work on other meetings keeps the phase. -/
theorem Holds.of_leavesAlone {c : Restoration B}
    {phase : OperationPhase TranscriptRestorationResult} {old new : Library B}
    (h : c.Holds phase old) (hleaves : old.LeavesAlone c.request.meetingId new) :
    c.Holds phase new := by
  obtain ⟨hmeeting, hreceipts⟩ := hleaves
  refine ⟨⟨?_, fun other s hs hpending hs' => ?_⟩, hmeeting ▸ h.artifacts, hmeeting ▸ h.record, ?_,
    h.commit⟩
  · refine (hreceipts _ _ ?_).mpr h.stored.receipt
    rw [OperationPhase.receipt_request]
    rfl
  · exact h.stored.sole other s ((hreceipts other s hs').mp hs) hpending hs'
  · unfold Library.reader
    rw [hmeeting]
    exact h.result

/-- What an admitted request says about the record it found. -/
structure Found (c : Restoration B) : Prop where
  valid : c.meeting.validate B c.request.meetingId.text = .ok ()
  pending : c.meeting.pendingStorageOperation = none
  meetingId : c.meeting.meetingId = c.request.meetingId.text
  current : c.meeting.artifacts.currentTranscript =
    some ⟨revisionPath c.request.sourceTranscriptSha256, c.request.sourceTranscriptSha256⟩
  lifecycle : lifecycleAccepts c.meeting.lifecycle c.meeting.artifacts.currentNote = true
  priorNote : c.meeting.artifacts.currentNote = c.request.priorNote
  inspected : ∃ source, inspectRevision c.files.reader c.request.meetingId
    c.request.sourceTranscriptSha256 = .ok source

theorem Admitted.found {c : Restoration B} (h : c.Admitted) : c.Found := by
  obtain ⟨source, hsource⟩ := h.source
  unfold requireCurrentSource requireNoPendingStorage requireCurrentTranscript at hsource
  simp only [bind_eq_ok, mapError_eq_ok, refuseIf_eq_ok, orRefuse_eq_ok, checkSome_some, not_or,
    not_not] at hsource
  obtain ⟨_, hpending, _, hid, ⟨path, sha⟩, hcurrent, _, ⟨hsha, hpath⟩, _, hlifecycle, _, hnote,
    found, hfound, -⟩ := hsource
  simp only at hsha hpath
  subst hsha hpath
  exact ⟨loadMeeting_eq_ok h.record, by simpa using hpending, hid, hcurrent, hlifecycle, hnote,
    found, hfound⟩

/-! ## What the checks find in each phase -/

namespace Holds

variable {c : Restoration B} {phase : OperationPhase TranscriptRestorationResult} {lib : Library B}
  {result : TranscriptRestorationResult}

/-- Before the result is published the meeting is read as the request found it. -/
theorem load_of_not_published (h : c.Holds phase lib) (hadmitted : c.Admitted)
    (hphase : phase.isPublished = false) :
    loadAndVerifyMeeting (lib.reader c.request.meetingId) c.request.meetingId = .ok c.meeting := by
  have hfound := hadmitted.found
  have hrecord : lib.meetings c.request.meetingId "meeting.json" = c.files "meeting.json" := by
    rw [h.record]
    cases phase <;> simp_all [OperationPhase.isPublished, Restoration.record]
  have hlifecycle : c.meeting.lifecycle ≠ .recoveredInterrupted := by
    rcases lifecycleAccepts_cases hfound.lifecycle with hl | hl | hl <;> rw [hl] <;> decide
  unfold loadAndVerifyMeeting Library.reader
  rw [loadMeeting_congr hrecord, hadmitted.record, mapError_ok, ok_bind,
    verifyRecordArtifacts_mono ((MeetingRecord.validate_eq_ok B _ _).mp hfound.valid) hlifecycle
      h.artifacts hadmitted.artifacts]
  rfl

/-- Afterwards it is read as the record that publishes the result. -/
theorem load_of_published (h : c.Holds phase lib) (hadmitted : c.Admitted)
    (hphase : phase.isPublished = true) (hresult : phase.result? = some result) :
    loadAndVerifyMeeting (lib.reader c.request.meetingId) c.request.meetingId =
      .ok (publishedMeeting c.meeting result) := by
  have hfound := hadmitted.found
  have hinspected := inspectStoredResult_eq_ok (h.result result hresult)
  have hvalid := publishedMeeting_valid hfound.valid hfound.pending hfound.lifecycle
    hinspected.validResult
  have hrecord : lib.meetings c.request.meetingId "meeting.json" =
      some (toVecPretty (publishedMeeting c.meeting result)) := by
    rw [h.record]
    cases phase <;> simp_all [OperationPhase.isPublished, OperationPhase.result?, Restoration.record]
  have hlifecycle : c.meeting.lifecycle ≠ .recoveredInterrupted := by
    rcases lifecycleAccepts_cases hfound.lifecycle with hl | hl | hl <;> rw [hl] <;> decide
  have hartifacts := verifyRecordArtifacts_mono
    ((MeetingRecord.validate_eq_ok B _ _).mp hfound.valid) hlifecycle h.artifacts
    hadmitted.artifacts
  have hpublished : verifyRecordArtifacts (lib.meetings c.request.meetingId).reader
      (publishedMeeting c.meeting result) = .ok () := by
    rw [verifyRecordArtifacts_eq_ok (by simp [publishedMeeting])]
    rw [verifyRecordArtifacts_eq_ok hlifecycle] at hartifacts
    intro r hr
    rcases references_publishedMeeting hr with hr | rfl
    · exact hartifacts r hr
    · exact hinspected.view
  unfold loadAndVerifyMeeting Library.reader
  rw [loadMeeting_of_written hvalid hrecord, mapError_ok, ok_bind, hpublished]
  rfl

end Holds

/-- The record a request found is where its source stood. -/
theorem Found.sourceStateMatches {c : Restoration B} (h : c.Found) :
    sourceStateMatches c.request.sourceTranscriptSha256 c.request.priorNote c.meeting.lifecycle
      c.request.sourceTranscriptSha256 c.meeting.artifacts.currentNote = true := by
  have hlifecycle := h.lifecycle
  unfold SessionCore.sourceStateMatches
  rw [← h.priorNote]
  cases hnote : c.meeting.artifacts.currentNote <;> cases hl : c.meeting.lifecycle <;>
    simp [lifecycleAccepts, hnote, hl] at hlifecycle ⊢

/-- The transcript a request starts from, as the record points to it. -/
def sourceRef (c : Restoration B) : ArtifactRef :=
  ⟨revisionPath c.request.sourceTranscriptSha256, c.request.sourceTranscriptSha256⟩

section

omit [Platform B] [DecidableEq B]

theorem validateDigest_source {request : TranscriptRestorationRequest}
    (h : request.validate = .ok ()) : validateDigest request.sourceTranscriptSha256 = .ok () := by
  unfold TranscriptRestorationRequest.validate at h
  simp only [check_bind_eq_ok] at h
  exact h.2.1

theorem validateDigest_view {result : TranscriptRestorationResult}
    (h : result.validate = .ok ()) : validateDigest result.view.sha256 = .ok () := by
  unfold TranscriptRestorationResult.validate ArtifactRef.validateDigestNamed validateSha256 at h
  simp only [check_bind_eq_ok, mapError_eq_ok, refuseIf_eq_ok, not_not] at h
  exact refuseIf_of_not (by simp [h.2.2.2.1.1])

end

/-- A request without a result is retried. -/
theorem classify_requested {c : Restoration B} (h : c.Admitted) :
    classify c.request none c.meeting c.sourceRef = .ok .retryRequest := by
  unfold classify classifyRestorationRecovery sourceRef
  simp only [h.request, validateDigest_source h.request, ok_bind, h.found.sourceStateMatches]
  rfl

/-- A stored result is applied while the record stands where the request found it. -/
theorem classify_resulted {c : Restoration B} {read : Reader B}
    {result : TranscriptRestorationResult} (h : c.Admitted)
    (hresult : InspectedResult read c.request result) :
    classify c.request (some result) c.meeting c.sourceRef = .ok .applyValidatedResult := by
  have hmatch := hresult.matchesRequest
  simp only [resultMatchesRequest, Bool.and_eq_true, beq_iff_eq] at hmatch
  unfold classify classifyRestorationRecovery sourceRef
  simp only [h.request, validateDigest_source h.request, hresult.validResult, ok_bind,
    h.found.sourceStateMatches]
  rw [refuseIf_of_not (by simp [hmatch])]
  rfl

/-- A published result lacks its commit. -/
theorem classify_published {c : Restoration B} {read : Reader B}
    {result : TranscriptRestorationResult} (h : c.Admitted)
    (hresult : InspectedResult read c.request result) :
    classify c.request (some result) (publishedMeeting c.meeting result) result.view =
      .ok .writeMissingCommit := by
  have hmatch := hresult.matchesRequest
  simp only [resultMatchesRequest, Bool.and_eq_true, beq_iff_eq] at hmatch
  have hmoved : SessionCore.sourceStateMatches c.request.sourceTranscriptSha256 c.request.priorNote
      MeetingLifecycle.transcriptReady result.view.sha256 none = false := by
    unfold SessionCore.sourceStateMatches
    rw [beq_false_of_ne hresult.successor, Bool.false_and]
  unfold classify classifyRestorationRecovery
  simp only [h.request, validateDigest_view hresult.validResult, hresult.validResult, ok_bind,
    publishedMeeting, hmoved]
  rw [refuseIf_of_not (by simp [hmatch])]
  simp

/-! ## The commit -/

section Commit

variable {c : Restoration B} {read : Reader B} {result : TranscriptRestorationResult}
  {committedAt : UInt64}

/-- The commit of a result that is published. -/
def commitOf (c : Restoration B) (committedAt : UInt64) (result : TranscriptRestorationResult) :
    MeetingOperationCommit :=
  terminalCommit committedAt c.request result (publishedMeeting c.meeting result) result.view
    (toVecPretty (publishedMeeting c.meeting result) : B)

omit [DecidableEq B] in
theorem commitOf_valid (hresult : InspectedResult read c.request result) (htime : committedAt ≠ 0) :
    (c.commitOf committedAt result).validate = .ok () := by
  have hview := validateDigest_view hresult.validResult
  unfold MeetingOperationCommit.validate commitOf terminalCommit
  simp only [check_bind_eq_ok, refuseIf_eq_ok, publishedMeeting, checkSome_none, validateDigest,
    digestPretty, Platform.validSha256_sha256]
  simp only [validateDigest, refuseIf_eq_ok] at hview
  exact ⟨by simp, by simp, by simp, hview, htime, trivial, refuseIf_of_not (by decide)⟩

omit [DecidableEq B] in
theorem commitOf_matches : commitMatchesReceipts B (.restoration c.request)
    (.restoration result) (c.commitOf committedAt result) = true := by
  simp [commitMatchesReceipts, commitOf, terminalCommit, digestPretty,
    StoredOperationRequest.canonicalBytes, StoredOperationResult.canonicalBytes]

theorem commitOf_meeting (h : c.Admitted) (hresult : InspectedResult read c.request result)
    (htime : committedAt ≠ 0) :
    validateCommitMeeting (c.commitOf committedAt result) (publishedMeeting c.meeting result)
      (toVecPretty (publishedMeeting c.meeting result) : B) = .ok () := by
  have hfound := h.found
  have hvalid := publishedMeeting_valid hfound.valid hfound.pending hfound.lifecycle
    hresult.validResult
  unfold validateCommitMeeting
  rw [commitOf_valid hresult htime, ok_bind,
    show (c.commitOf committedAt result).meetingId = c.request.meetingId from rfl, hvalid,
    mapError_ok, ok_bind, fromSlice_toVecPretty, orRefuse_some, ok_bind]
  simp [publishedMeeting, commitOf, terminalCommit, hfound.pending, hfound.meetingId]

/-- Request, result and commit are one operation. -/
theorem commitOf_receipts (h : c.Admitted) (hresult : InspectedResult read c.request result)
    (htime : committedAt ≠ 0) :
    validateRestorationReceipts c.request result (c.commitOf committedAt result)
      (publishedMeeting c.meeting result)
      (toVecPretty (publishedMeeting c.meeting result) : B) = .ok () := by
  have hmatch := hresult.matchesRequest
  simp only [resultMatchesRequest, Bool.and_eq_true, beq_iff_eq] at hmatch
  unfold validateRestorationReceipts
  rw [h.request, ok_bind, hresult.validResult, ok_bind, commitOf_valid hresult htime, ok_bind,
    refuseIf_of_not (by simp [hmatch, commitOf, terminalCommit]), ok_bind]
  exact commitOf_meeting h hresult htime

end Commit

end Restoration

end YawnApp.SessionCore
