import YawnApp.SessionCore.InterruptedTranscription
import YawnApp.SessionCore.NotePhases
import YawnApp.SessionCore.QueueReadiness
import YawnApp.SessionCore.RestorationPhases
import YawnApp.SessionCore.TranscriptDeletion
import YawnApp.SessionCore.TranscriptRetry

set_option autoImplicit false

/-!
# The writers of the meeting record

Nine operations replace `meeting.json`.  Each reads the record, checks what it
needs and changes some of its fields, and `write_meeting` then refuses a record
that `MeetingRecord::validate` does not accept, at a point where the operation
has often made other changes already.  So a writer should produce a valid record
whenever its own checks let a valid one pass.  One of them does not: the commit
of a transcription request looks at the lifecycle of the meeting and not at a
storage operation that is pending.
-/

namespace YawnApp.SessionCore

open YawnApp.Foundation MeetingRecord

variable {B : Type} [Platform B] {meeting : MeetingRecord} {name : String}

/-! ## What each writer checks and makes -/

inductive RecordWriter (B : Type) where
  | queueCommit (id : Uuid) (transcript : ArtifactRef)
  | restorationApply (request : TranscriptRestorationRequest) (result : TranscriptRestorationResult)
  | noteApply (runtime : NoteGenerationRuntime B) (request : NoteGenerationRequest)
      (result : NoteGenerationResult)
  | retryPromotion (candidate : TranscriptRetryCandidate)
  | transcriptDetach (receipt : TranscriptDeletionReceipt)
  | transcriptDetachEnd
  | audioDeletionPending
  | audioDeletionReleased (receipt : AudioDeletionReceipt)
  | captureSalvage (nonce : Uuid)
  | handBack

/-- The record a salvage starts from: a captured meeting loses its capture
receipt first. -/
def salvageBase (meeting : MeetingRecord) : MeetingRecord :=
  if meeting.lifecycle = .captured then
    { meeting with artifacts := { meeting.artifacts with captureSession := none } }
  else meeting

variable [DecidableEq B] in
/-- What a writer makes of a record it finds in a meeting directory, its own
checks passed.  Each case has the checks of the writer's program, in their order,
up to its call of `write_meeting`. -/
inductive RecordWriter.Produces (name : String) (m : MeetingDirectory B) :
    RecordWriter B → MeetingRecord → MeetingRecord → Prop
  | queueCommit {id : Uuid} {meeting : MeetingRecord} {item : TranscriptionQueueItem}
      {result : TranscriptionResult} (hitem : TranscriptionQueue.loadItemOf id m = .ok item)
      (hresult : item.result = some result)
      (hsource : verifySource m.reader meeting item.request = .ok ())
      (htranscript : verifyArtifactRef m.reader result.transcript = .ok ())
      (hcommit : item.commit = none) (hterminal : item.terminal = none)
      (hcaptured : meeting.lifecycle = .captured) :
      Produces name m (.queueCommit id result.transcript) meeting
        (TranscriptionQueue.publishedRecord meeting result.transcript)
  | restorationApply {request : TranscriptRestorationRequest}
      {result : TranscriptRestorationResult} {meeting produced : MeetingRecord}
      (hloaded : TranscriptRestorationCoordinator.loadAndVerifyMeeting m.reader request.meetingId =
        .ok meeting)
      (hprepared : TranscriptRestorationCoordinator.prepareApply m.reader request result =
        .ok produced) :
      Produces name m (.restorationApply request result) meeting produced
  | noteApply {runtime : NoteGenerationRuntime B} {request : NoteGenerationRequest}
      {result : NoteGenerationResult} {meeting produced : MeetingRecord} {current : ArtifactRef}
      (hloaded : NoteGenerationCoordinator.resumableMeeting m.reader request =
        .ok (meeting, current))
      (hprepared : NoteGenerationCoordinator.prepareApply runtime m.reader request result =
        .ok (some produced)) :
      Produces name m (.noteApply runtime request result) meeting produced
  | retryPromotion {id : Uuid} {meeting : MeetingRecord} {candidate : TranscriptRetryCandidate}
      {current : ArtifactRef}
      (hloaded : TranscriptRetry.loadDecision name id m = .ok (meeting, candidate))
      (havailable : candidate.state = .candidateAvailableForComparison)
      (hcurrent : meeting.artifacts.currentTranscript = some current)
      (hsource : current.sha256 = candidate.sourceTranscriptSha256) :
      Produces name m (.retryPromotion candidate) meeting
        (TranscriptRetry.promotedRecord meeting candidate)
  | transcriptDetach {meeting : MeetingRecord} {receipt : TranscriptDeletionReceipt}
      (hpending : meeting.pendingStorageOperation = none)
      (hbinding : validateInitialBinding meeting receipt = .ok ()) :
      Produces name m (.transcriptDetach receipt) meeting (detachedRecord meeting)
  | transcriptDetachEnd {meeting : MeetingRecord}
      (hpending : meeting.pendingStorageOperation = some .transcriptDeletionV1) :
      Produces name m .transcriptDetachEnd meeting { meeting with pendingStorageOperation := none }
  | audioDeletionPending {meeting : MeetingRecord} {receipt : AudioDeletionReceipt}
      (hpreflight : Retention.preflightMeetingRetention m meeting = .ok ())
      (hstate : meeting.retention.state = .retained)
      (hreceipt : Retention.newReceipt m.tree meeting = .ok receipt) :
      Produces name m .audioDeletionPending meeting (Retention.deletingRecord meeting)
  | audioDeletionReleased {meeting produced : MeetingRecord} {receipt : AudioDeletionReceipt}
      (hbinding : Retention.validateReceiptBinding meeting receipt = .ok ())
      (hfinal : Retention.finalizeReleasedRecord m meeting = .ok produced) :
      Produces name m (.audioDeletionReleased receipt) meeting produced
  | captureSalvage {nonce : Uuid} {meeting produced : MeetingRecord}
      (hlifecycle : meeting.lifecycle = .captured ∨ meeting.lifecycle = .incomplete)
      (hbound : ((Recovery.bindInterruptedArtifacts nonce (salvageBase meeting)).exec m).result =
        .ok produced) :
      Produces name m (.captureSalvage nonce) meeting produced
  | handBack {meeting : MeetingRecord}
      (hchecked : Recovery.checkTranscribableInterruptedCapture m meeting true = .ok ()) :
      Produces name m .handBack meeting (Recovery.handedBackRecord meeting)

/-! ## A captured record -/

namespace MeetingRecord

variable {m : MeetingRecord}

/-- A captured record owns a complete capture and nothing derived from it. -/
theorem Valid.captured {name : String} (h : m.Valid B name) (hlifecycle : m.lifecycle = .captured) :
    m.artifacts.completeCapture = true ∧ m.artifacts.currentTranscript = none ∧
      m.artifacts.currentNote = none ∧ ¬ m.artifacts.ownership.isNone := by
  have hrule := h.lifecycle
  unfold validateLifecycle at hrule
  simp only [hlifecycle, refuseIf_eq_ok, not_or, not_not, Option.not_isSome_iff_eq_none] at hrule
  exact hrule

theorem anyAudio_of_completeCapture {a : MeetingArtifacts} (h : a.completeCapture = true) :
    a.anyAudio = true := by
  unfold MeetingArtifacts.completeCapture at h
  simp only [Bool.and_eq_true] at h
  simp [MeetingArtifacts.anyAudio, h.1.2]

/-- What the state of a record's audio says about its pending operation. -/
theorem Valid.audio_cases {name : String} (h : m.Valid B name)
    (haudio : m.artifacts.anyAudio = true) :
    (m.retention.state = .retained ∧ m.retention.deletionReceipt = none ∧
        m.pendingStorageOperation ≠ some .audioDeletionV1) ∨
      (m.retention.state = .deleting ∧ m.retention.deletionReceipt = none ∧
        m.pendingStorageOperation = some .audioDeletionV1) ∨
      (m.retention.state = .released ∧ m.retention.deletionReceipt.isSome ∧
        m.pendingStorageOperation ≠ some .audioDeletionV1) := by
  have hrule := h.audioState
  unfold validateAudioState at hrule
  cases hstate : m.retention.state with
  | neverCreated => simp [hstate, haudio] at hrule
  | retained =>
    simp only [hstate, refuseIf_eq_ok, not_or, Option.not_isSome_iff_eq_none] at hrule
    exact .inl ⟨rfl, hrule.2⟩
  | deleting =>
    simp only [hstate, refuseIf_eq_ok, not_or, not_not, Option.not_isSome_iff_eq_none] at hrule
    exact .inr (.inl ⟨rfl, hrule.2⟩)
  | released =>
    simp only [hstate, bind_eq_ok, orRefuse_eq_ok, refuseIf_eq_ok, not_or] at hrule
    obtain ⟨receipt, hreceipt, -, -, -, hpending⟩ := hrule
    exact .inr (.inr ⟨rfl, by rw [hreceipt]; rfl, hpending⟩)

theorem Valid.created {name : String} (h : m.Valid B name) (haudio : m.artifacts.anyAudio = true) :
    m.retention.state ≠ .neverCreated := by
  intro hstate
  rcases h.audio_cases haudio with ⟨hcase, -⟩ | ⟨hcase, -⟩ | ⟨hcase, -⟩ <;> rw [hstate] at hcase <;>
    cases hcase

/-- The rule for the state of the audio reads the retention, whether there is
any audio and whether its deletion is pending. -/
theorem validateAudioState_of_same {p : MeetingRecord} (h : m.validateAudioState = .ok ())
    (hcreated : m.retention.state ≠ .neverCreated) (hretention : p.retention = m.retention)
    (haudio : p.artifacts.anyAudio = m.artifacts.anyAudio)
    (hpending : p.pendingStorageOperation = some .audioDeletionV1 ↔
      m.pendingStorageOperation = some .audioDeletionV1) : p.validateAudioState = .ok () := by
  unfold validateAudioState at h ⊢
  simp only [hretention, haudio, hpending]
  cases hstate : m.retention.state with
  | neverCreated => exact absurd hstate hcreated
  | retained | deleting | released => rwa [hstate] at h

end MeetingRecord

/-- The reference made to a file has the path it was made for. -/
theorem validateRef_artifactRef {read : Reader B} {path : String} {reference : ArtifactRef}
    (h : artifactRef read path = .ok reference) : validateRef reference path = .ok () := by
  unfold artifactRef hashArtifact at h
  simp only [bind_eq_ok, pure, Except.pure, Except.ok.injEq] at h
  obtain ⟨_, ⟨-, -, bytes, -, rfl⟩, rfl⟩ := h
  unfold validateRef validateSha256
  rw [check_bind_eq_ok]
  exact ⟨refuseIf_of_not (by simp), refuseIf_of_not (by simp [Platform.validSha256_sha256])⟩

/-! ## The commit of a transcription request -/

/-- The commit of a valid captured record is valid when no storage operation is
pending, the audio is retained and the transcript has the name of its digest,
and only then. -/
theorem publishedRecord_valid_iff {transcript : ArtifactRef} (hvalid : meeting.Valid B name)
    (hcaptured : meeting.lifecycle = .captured) :
    (TranscriptionQueue.publishedRecord meeting transcript).Valid B name ↔
      meeting.pendingStorageOperation = none ∧ meeting.retention.state = .retained ∧
        transcript.validateDigestNamed "transcript" "json" = .ok () := by
  obtain ⟨hcomplete, -, hnote, hownership⟩ := hvalid.captured hcaptured
  have haudio := anyAudio_of_completeCapture hcomplete
  have hreferences := hvalid.references
  unfold validateReferences at hreferences
  simp only [hcaptured, check_bind_eq_ok] at hreferences
  obtain ⟨hattempt, hown, hsession, hmic, hsystem, -, -⟩ := hreferences
  constructor
  · intro h
    have htranscript : transcript.validateDigestNamed "transcript" "json" = .ok () := by
      have hrule := h.references
      unfold validateReferences at hrule
      simp only [check_bind_eq_ok] at hrule
      exact hrule.2.2.2.2.2.1
    have hrule := h.pending
    unfold validatePending at hrule
    rw [refuseIf_eq_ok] at hrule
    have hretained := h.audio_cases haudio
    simp only [TranscriptionQueue.publishedRecord, reduceCtorEq, false_and, or_false,
      true_and] at hretained
    have hpending : meeting.pendingStorageOperation = none := by
      cases hoperation : meeting.pendingStorageOperation with
      | none => rfl
      | some operation =>
        cases operation with
        | audioDeletionV1 => exact absurd hoperation hretained.2
        | transcriptDeletionV1 => exact absurd ⟨hoperation, .inl (by simp [TranscriptionQueue.publishedRecord])⟩ hrule
    rcases hvalid.audio_cases haudio with ⟨hstate, -⟩ | ⟨-, -, hdeleting⟩ | ⟨-, hreceipt, -⟩
    · exact ⟨hpending, hstate, htranscript⟩
    · rw [hpending] at hdeleting
      cases hdeleting
    · rw [hretained.1] at hreceipt
      cases hreceipt
  · rintro ⟨hpending, hstate, htranscript⟩
    refine ⟨hvalid.identity, hvalid.retentionRule, ?_, ?_, ?_, ?_, ?_⟩
    · unfold validateReferences
      simp only [check_bind_eq_ok]
      exact ⟨hattempt, hown, hsession, hmic, hsystem, htranscript, by
        simp [TranscriptionQueue.publishedRecord, hnote]⟩
    · apply refuseIf_of_not
      simp only [TranscriptionQueue.publishedRecord, not_or, not_not]
      exact ⟨hcomplete, rfl, by simp [hnote], hownership⟩
    · have hrule := hvalid.audioState
      unfold validateAudioState at hrule ⊢
      simp only [hstate] at hrule
      exact hrule
    · apply refuseIf_of_not
      simp [TranscriptionQueue.publishedRecord, hpending]
    · simp [validateUnfinished, TranscriptionQueue.publishedRecord, refuseIf_of_not,
        pure, Except.pure]

/-! ## The other writers -/

namespace TranscriptRestorationCoordinator

variable [DecidableEq B] in
/-- What `apply_result` checked of the record it replaces. -/
theorem produced_valid {read : Reader B} {request : TranscriptRestorationRequest}
    {result : TranscriptRestorationResult} {meeting produced : MeetingRecord} {name : String}
    (hvalid : meeting.validate B name = .ok ())
    (hloaded : loadAndVerifyMeeting read request.meetingId = .ok meeting)
    (hprepared : prepareApply read request result = .ok produced) :
    produced.validate B name = .ok () := by
  unfold prepareApply requireNoPendingStorage requireCurrentTranscript at hprepared
  rw [hloaded, ok_bind, check_bind_eq_ok] at hprepared
  simp only [bind_eq_ok, refuseIf_eq_ok, not_not, orRefuse_eq_ok, pure, Except.pure,
    Except.ok.injEq, Option.not_isSome_iff_eq_none] at hprepared
  obtain ⟨hpending, current, -, recovery, hclassify, _, rfl, _, -, rfl⟩ := hprepared
  unfold classify classifyRestorationRecovery at hclassify
  simp only [mapError_eq_ok, check_bind_eq_ok, refuseIf_eq_ok] at hclassify
  obtain ⟨-, -, hresult, -, hmatches⟩ := hclassify
  refine publishedMeeting_valid hvalid hpending ?_ hresult
  split at hmatches
  · rename_i hsource
    unfold sourceStateMatches at hsource
    unfold lifecycleAccepts
    cases hlifecycle : meeting.lifecycle <;> cases hnote : meeting.artifacts.currentNote <;>
      cases hprior : request.priorNote <;> simp_all
  · split at hmatches <;> cases hmatches

end TranscriptRestorationCoordinator

namespace NoteGenerationCoordinator

theorem produced_valid {runtime : NoteGenerationRuntime B} {read : Reader B}
    {request : NoteGenerationRequest} {result : NoteGenerationResult}
    {meeting produced : MeetingRecord} {current : ArtifactRef} {name : String}
    (hvalid : meeting.validate B name = .ok ())
    (hloaded : resumableMeeting read request = .ok (meeting, current))
    (hprepared : prepareApply runtime read request result = .ok (some produced)) :
    produced.validate B name = .ok () := by
  unfold prepareApply at hprepared
  rw [hloaded, ok_bind] at hprepared
  simp only [bind_eq_ok] at hprepared
  obtain ⟨recovery, hclassify, hproduced⟩ := hprepared
  -- the request found the record as its result leaves it to be written
  cases recovery with
  | writeMissingCommit | retryRequest => cases hproduced
  | applyValidatedResult =>
    simp only [bind_eq_ok, pure, Except.pure, Except.ok.injEq, Option.some.injEq] at hproduced
    obtain ⟨_, hinspected, rfl⟩ := hproduced
    unfold classify classifyNoteRecovery at hclassify
    simp only [mapError_eq_ok, check_bind_eq_ok, refuseIf_eq_ok, not_or, not_not] at hclassify
    obtain ⟨hrequest, -, hresult, ⟨hoperation, hmeeting, hsource⟩, hmatches⟩ := hclassify
    unfold resumableMeeting requireNoPendingStorage requireCurrentTranscript at hloaded
    simp only [bind_eq_ok, refuseIf_eq_ok, orRefuse_eq_ok, pure, Except.pure, Except.ok.injEq,
      Prod.mk.injEq, Option.not_isSome_iff_eq_none] at hloaded
    obtain ⟨found, -, _, hpending, transcript, hcurrent, hfound, htranscript⟩ := hloaded
    rw [hfound] at hpending hcurrent
    rw [htranscript] at hcurrent
    have hstands : sourceStateMatches request.sourceTranscriptSha256 request.priorNote
        meeting.lifecycle current.sha256 meeting.artifacts.currentNote = true := by
      split at hmatches
      · cases hmatches
      · split at hmatches
        · assumption
        · cases hmatches
    have hstored : InspectedNote runtime.inspect read request result := by
      refine ⟨hresult, by simp [resultMatchesRequest, hoperation, hmeeting, hsource],
        fun haccepted => ?_⟩
      unfold inspectStoredResult at hinspected
      rw [hresult, mapError_ok, ok_bind, if_pos haccepted] at hinspected
      simp only [bind_eq_ok, orRefuse_eq_ok, mapError_eq_ok] at hinspected
      obtain ⟨note, hnote, digests, hdigests, hjoin⟩ := hinspected
      exact ⟨note, digests, hnote, hdigests, hjoin⟩
    refine publishedMeeting_valid hvalid hpending ?_ ?_ hrequest hstored
    · unfold sourceStateMatches at hstands
      simp only [Bool.and_eq_true, beq_iff_eq] at hstands
      rw [hcurrent, Option.map_some, hstands.1]
    · unfold sourceStateMatches at hstands
      unfold canGenerate
      cases hlifecycle : meeting.lifecycle <;> cases hnote : meeting.artifacts.currentNote <;>
        cases hprior : request.priorNote <;> simp_all

end NoteGenerationCoordinator

/-- A promoted candidate takes the place of the transcript of a settled record. -/
theorem TranscriptRetry.promotedRecord_valid {id : Uuid} {m : MeetingDirectory B}
    {candidate : TranscriptRetryCandidate}
    (hloaded : loadDecision name id m = .ok (meeting, candidate)) :
    (promotedRecord meeting candidate).Valid B name := by
  obtain ⟨heligible, -, hreceipt, -⟩ := loadDecision_eq_ok.mp hloaded
  obtain ⟨-, -, hshape, -⟩ := loadReceipt_eq_ok.mp hreceipt
  obtain ⟨hcomplete, hownership⟩ := heligible.valid.completeCapture heligible.lifecycle
  refine heligible.valid.derived heligible.pending heligible.lifecycle (.inr (.inl rfl))
    (validateDigestNamed_of_shape hshape) rfl ?_
  apply refuseIf_of_not
  simp only [not_or, not_not]
  exact ⟨hcomplete, rfl, by simp, hownership⟩

/-- A record without its transcript and note is a captured one. -/
theorem detachedRecord_valid {receipt : TranscriptDeletionReceipt} (hvalid : meeting.Valid B name)
    (hpending : meeting.pendingStorageOperation = none)
    (hbinding : validateInitialBinding meeting receipt = .ok ()) :
    (detachedRecord meeting).Valid B name := by
  unfold validateInitialBinding at hbinding
  simp only [check_bind_eq_ok, refuseIf_eq_ok, not_or, not_not, List.mem_cons, List.not_mem_nil,
    or_false] at hbinding
  obtain ⟨⟨hprior, hlifecycle⟩, -⟩ := hbinding
  have hcases : MeetingRecord.HasTranscript meeting.lifecycle := by
    rw [hlifecycle]
    unfold MeetingRecord.HasTranscript
    tauto
  obtain ⟨hcomplete, hownership⟩ := hvalid.completeCapture hcases
  have haudio := anyAudio_of_completeCapture hcomplete
  refine ⟨hvalid.identity, hvalid.retentionRule, ?_, ?_, ?_, ?_, ?_⟩
  · have hreferences := hvalid.references
    have hnot : decide (meeting.lifecycle = .recoveredInterrupted) = false := by
      rcases hcases with hl | hl | hl <;> rw [hl] <;> rfl
    unfold validateReferences at hreferences ⊢
    simp only [hnot, check_bind_eq_ok] at hreferences
    simp only [check_bind_eq_ok]
    obtain ⟨hattempt, hown, hsession, hmic, hsystem, -, -⟩ := hreferences
    exact ⟨hattempt, hown, hsession, hmic, hsystem, rfl, rfl⟩
  · apply refuseIf_of_not
    simp only [detachedRecord, not_or, not_not]
    exact ⟨hcomplete, by simp, by simp, hownership⟩
  · exact validateAudioState_of_same hvalid.audioState (hvalid.created haudio) rfl rfl
      (by simp [detachedRecord, hpending])
  · apply refuseIf_of_not
    simp [detachedRecord]
  · simp [validateUnfinished, detachedRecord, refuseIf_of_not, pure, Except.pure]

/-- A transcript deletion that ends leaves a captured record. -/
theorem detachEnd_valid (hvalid : meeting.Valid B name)
    (hpending : meeting.pendingStorageOperation = some .transcriptDeletionV1) :
    ({ meeting with pendingStorageOperation := none } : MeetingRecord).Valid B name := by
  have hlifecycle : meeting.lifecycle = .captured := by
    have hrule := hvalid.pending
    unfold validatePending at hrule
    rw [refuseIf_eq_ok, hpending] at hrule
    by_contra hne
    exact hrule ⟨rfl, .inl hne⟩
  have haudio := anyAudio_of_completeCapture (hvalid.captured hlifecycle).1
  refine ⟨hvalid.identity, hvalid.retentionRule, hvalid.references, hvalid.lifecycle, ?_, ?_,
    hvalid.unfinished⟩
  · exact validateAudioState_of_same hvalid.audioState (hvalid.created haudio) rfl rfl
      (by simp [hpending])
  · exact refuseIf_of_not (by simp)

namespace Retention

variable {meeting : MeetingRecord} {name : String}

/-- Retained audio is any audio, and no receipt says that it is gone. -/
theorem retained_rule (hvalid : meeting.Valid B name) (hstate : meeting.retention.state = .retained) :
    meeting.artifacts.anyAudio = true ∧ meeting.retention.deletionReceipt = none := by
  have hrule := hvalid.audioState
  unfold validateAudioState at hrule
  simp only [hstate, refuseIf_eq_ok, not_or, not_not, Option.not_isSome_iff_eq_none] at hrule
  exact ⟨hrule.1, hrule.2.1⟩

/-- A record that owns audio is not an incomplete one. -/
theorem not_incomplete (hvalid : meeting.Valid B name) (haudio : meeting.artifacts.anyAudio = true) :
    meeting.lifecycle ≠ .incomplete := by
  intro hlifecycle
  have hrule := hvalid.lifecycle
  unfold validateLifecycle at hrule
  simp only [hlifecycle, refuseIf_eq_ok, not_or] at hrule
  exact hrule.1 (by simp [MeetingArtifacts.anyCapture, haudio])

/-- The rule for an unfinished meeting holds of any record that owns audio and
says so. -/
theorem unfinished_of_audio (haudio : meeting.artifacts.anyAudio = true)
    (hlifecycle : meeting.lifecycle ≠ .incomplete)
    (hcreated : meeting.retention.state ≠ .neverCreated) : meeting.validateUnfinished = .ok () := by
  unfold validateUnfinished
  rw [check_bind_eq_ok]
  refine ⟨refuseIf_of_not fun h => hlifecycle h.1, ?_⟩
  split
  · rw [check_bind_eq_ok]
    exact ⟨refuseIf_of_not fun h => hcreated h.2, refuseIf_of_not fun h => h.1 haudio⟩
  · rfl

theorem deletingRecord_valid (hvalid : meeting.Valid B name)
    (hstate : meeting.retention.state = .retained) : (deletingRecord meeting).Valid B name := by
  obtain ⟨haudio, hreceipt⟩ := retained_rule hvalid hstate
  have hlifecycle := not_incomplete hvalid haudio
  refine ⟨hvalid.identity, hvalid.retentionRule, hvalid.references, hvalid.lifecycle, ?_, ?_, ?_⟩
  · exact refuseIf_of_not (by simp [deletingRecord, haudio, hreceipt])
  · exact refuseIf_of_not (by simp [deletingRecord])
  · exact unfinished_of_audio haudio hlifecycle (by simp [deletingRecord])

/-- A receipt that is bound to a record lists audio of it. -/
theorem anyAudio_of_binding {receipt : AudioDeletionReceipt}
    (hbinding : validateReceiptBinding meeting receipt = .ok ()) :
    meeting.artifacts.anyAudio = true := by
  unfold validateReceiptBinding at hbinding
  simp only [bind_eq_ok, refuseIf_eq_ok, not_or] at hbinding
  obtain ⟨-, -, -, -, -, ⟨hreferences, -⟩, -⟩ := hbinding
  by_contra hnone
  unfold MeetingArtifacts.anyAudio at hnone
  simp only [Bool.or_eq_true, not_or, Option.not_isSome_iff_eq_none] at hnone
  exact hreferences (by simp [audioReferences, hnone.1, hnone.2])

theorem finalizeReleasedRecord_valid {m : MeetingDirectory B} {produced : MeetingRecord}
    {receipt : AudioDeletionReceipt} (hvalid : meeting.Valid B name)
    (hbinding : validateReceiptBinding meeting receipt = .ok ())
    (hfinal : finalizeReleasedRecord m meeting = .ok produced) : produced.Valid B name := by
  have haudio := anyAudio_of_binding hbinding
  unfold finalizeReleasedRecord at hfinal
  simp only [bind_eq_ok, mapError_eq_ok, pure, Except.pure, Except.ok.injEq] at hfinal
  obtain ⟨reference, hreference, rfl⟩ := hfinal
  have hreceipt := validateRef_artifactRef hreference
  have hlifecycle := not_incomplete hvalid haudio
  refine ⟨hvalid.identity, hvalid.retentionRule, hvalid.references, hvalid.lifecycle, ?_, ?_, ?_⟩
  · unfold validateAudioState
    simp only [orRefuse_some, ok_bind]
    rw [check_bind_eq_ok]
    exact ⟨hreceipt, refuseIf_of_not (by simpa using haudio)⟩
  · exact refuseIf_of_not (by simp)
  · exact unfinished_of_audio haudio hlifecycle (by simp)

end Retention

/-! ## The salvage of a capture -/

namespace Recovery

variable {canonicalPath partialPath : String} {reference : ArtifactRef}
  {inventory : InterruptedCaptureInventory} {names : List String} {read : Reader B}

/-- A track under its final name. -/
theorem trackRef_promoted {canonicalName partialName : String} {found : Option ArtifactRef}
    (h : trackRef read names canonicalName canonicalPath partialName partialPath = .ok found)
    (hname : canonicalName ∈ names) :
    ∃ reference, found = some reference ∧ validateRef reference canonicalPath = .ok () := by
  unfold trackRef at h
  rw [if_pos hname] at h
  cases href : artifactRef read canonicalPath with
  | error => simp [href, Except.map] at h
  | ok reference =>
    simp only [href, Except.map, Except.ok.injEq] at h
    exact ⟨reference, h.symm, validateRef_artifactRef href⟩

theorem validateRef_path {path : String} (h : validateRef reference path = .ok ()) :
    reference.relativePath = path := by
  unfold validateRef at h
  rw [check_bind_eq_ok, refuseIf_eq_ok, not_not] at h
  exact h.1

theorem validateAudioRef_of_canonical {allow : Bool}
    (h : validateRef reference canonicalPath = .ok ()) :
    validateAudioRef reference canonicalPath partialPath allow = .ok () := by
  unfold validateAudioRef
  unfold validateRef at h
  rw [check_bind_eq_ok, refuseIf_eq_ok, not_not] at h
  rw [check_bind_eq_ok]
  exact ⟨refuseIf_of_not (not_not_intro (.inl h.1)), h.2⟩

theorem validateAudioRef_of_partialPath (h : validateRef reference partialPath = .ok ()) :
    validateAudioRef reference canonicalPath partialPath true = .ok () := by
  unfold validateAudioRef
  unfold validateRef at h
  rw [check_bind_eq_ok, refuseIf_eq_ok, not_not] at h
  rw [check_bind_eq_ok]
  exact ⟨refuseIf_of_not (not_not_intro (.inr ⟨rfl, h.1⟩)), h.2⟩

/-- A track without its final name has its partial one, if it is there at all. -/
theorem trackRef_unpromoted {canonicalName partialName : String} {found : Option ArtifactRef}
    (h : trackRef read names canonicalName canonicalPath partialName partialPath = .ok found)
    (hname : canonicalName ∉ names) : checkSome found (fun reference =>
        validateAudioRef reference canonicalPath partialPath true) = .ok () ∧
      ∀ reference, found = some reference → reference.relativePath = partialPath := by
  unfold trackRef at h
  rw [if_neg hname] at h
  split at h
  · cases href : artifactRef read partialPath with
    | error => simp [href, Except.map] at h
    | ok =>
      simp only [href, Except.map, Except.ok.injEq] at h
      subst h
      have hrule := validateRef_artifactRef href
      refine ⟨validateAudioRef_of_partialPath hrule, fun other hother => ?_⟩
      rw [← Option.some.inj hother]
      exact validateRef_path hrule
  · cases h
    exact ⟨rfl, fun other hother => by cases hother⟩

/-- Two promoted tracks are a family. -/
theorem family_of_promoted {artifacts : MeetingArtifacts} {mic system : ArtifactRef}
    (hmic : artifacts.microphoneAudio = some mic) (hsystem : artifacts.systemAudio = some system)
    (hmicPath : mic.relativePath = microphoneAudioPath)
    (hsystemPath : system.relativePath = systemAudioPath) :
    validateInterruptedAudioFamily artifacts = .ok () := by
  unfold validateInterruptedAudioFamily
  simp only [hmic, hsystem, Option.map_some, List.filterMap_cons, List.filterMap_nil,
    hmicPath, hsystemPath]
  decide

/-- Tracks that were never promoted are one. -/
theorem family_of_partials {artifacts : MeetingArtifacts}
    (hmic : ∀ mic, artifacts.microphoneAudio = some mic →
      mic.relativePath = microphonePartialAudioPath)
    (hsystem : ∀ system, artifacts.systemAudio = some system →
      system.relativePath = systemPartialAudioPath) :
    validateInterruptedAudioFamily artifacts = .ok () := by
  unfold validateInterruptedAudioFamily
  cases hfirst : artifacts.microphoneAudio with
  | none =>
    cases hsecond : artifacts.systemAudio with
    | none => simp only [List.filterMap_cons, List.filterMap_nil, Option.map_none]; decide
    | some system =>
      simp only [List.filterMap_cons, List.filterMap_nil, Option.map_none, Option.map_some,
        hsystem system hsecond]
      decide
  | some mic =>
    cases hsecond : artifacts.systemAudio with
    | none =>
      simp only [List.filterMap_cons, List.filterMap_nil, Option.map_none, Option.map_some,
        hmic mic hfirst]
      decide
    | some system =>
      simp only [List.filterMap_cons, List.filterMap_nil, Option.map_some, hmic mic hfirst,
        hsystem system hsecond]
      decide

/-- The tracks of an inventory: both promoted, or none promoted. -/
structure FoundTracks (inventory : InterruptedCaptureInventory) : Prop where
  microphone : checkSome inventory.microphone (fun reference => validateAudioRef reference
    microphoneAudioPath microphonePartialAudioPath true) = .ok ()
  system : checkSome inventory.system (fun reference => validateAudioRef reference
    systemAudioPath systemPartialAudioPath true) = .ok ()
  family : ∀ artifacts : MeetingArtifacts, artifacts.microphoneAudio = inventory.microphone →
    artifacts.systemAudio = inventory.system → validateInterruptedAudioFamily artifacts = .ok ()

/-- The names that `discover_interrupted_capture` accepts name such tracks. -/
theorem foundTracks_of_names (hnames : checkNames names = .ok ())
    (hmic : trackRef read names "mic.wav" microphoneAudioPath ".mic.wav.partial"
      microphonePartialAudioPath = .ok inventory.microphone)
    (hsystem : trackRef read names "system.wav" systemAudioPath ".system.wav.partial"
      systemPartialAudioPath = .ok inventory.system) : FoundTracks inventory := by
  unfold checkNames at hnames
  simp only [check_bind_eq_ok, refuseIf_eq_ok] at hnames
  obtain ⟨-, -, hpair, -⟩ := hnames
  by_cases hname : "mic.wav" ∈ names
  · -- a promoted microphone track has its system track beside it
    have hsystemName : "system.wav" ∈ names := by
      by_contra habsent
      exact hpair ⟨.inl hname, fun hboth => habsent hboth.2⟩
    obtain ⟨mic, hfoundMic, hmicRef⟩ := trackRef_promoted hmic hname
    obtain ⟨system, hfoundSystem, hsystemRef⟩ := trackRef_promoted hsystem hsystemName
    refine ⟨?_, ?_, fun artifacts ha hb => ?_⟩
    · rw [hfoundMic]
      exact validateAudioRef_of_canonical hmicRef
    · rw [hfoundSystem]
      exact validateAudioRef_of_canonical hsystemRef
    · exact family_of_promoted (ha.trans hfoundMic) (hb.trans hfoundSystem)
        (validateRef_path hmicRef) (validateRef_path hsystemRef)
  · have hsystemName : "system.wav" ∉ names := by
      intro hpresent
      exact hpair ⟨.inr hpresent, fun hboth => hname hboth.1⟩
    obtain ⟨hmicRule, hmicPath⟩ := trackRef_unpromoted hmic hname
    obtain ⟨hsystemRule, hsystemPath⟩ := trackRef_unpromoted hsystem hsystemName
    refine ⟨hmicRule, hsystemRule, fun artifacts ha hb => ?_⟩
    exact family_of_partials (fun mic hfound => hmicPath mic (ha.symm.trans hfound))
      fun system hfound => hsystemPath system (hb.symm.trans hfound)

theorem foundTracks_of_discovered {m : MeetingDirectory B}
    (h : discoverInterruptedCapture m = .ok inventory) : FoundTracks inventory := by
  unfold discoverInterruptedCapture at h
  split at h
  · cases h
    exact ⟨rfl, rfl, fun artifacts ha hb => family_of_partials (by simp [ha]) (by simp [hb])⟩
  · rw [check_bind_eq_ok] at h
    simp only [bind_eq_ok, pure, Except.pure, Except.ok.injEq] at h
    obtain ⟨-, _, hnames, mic, hmic, system, hsystem, rfl⟩ := h
    exact foundTracks_of_names hnames hmic hsystem

/-- The record of a salvage, with the capture receipt it settles on. -/
def boundRecord (meeting : MeetingRecord) (inventory : InterruptedCaptureInventory)
    (captureSession : Option ArtifactRef) : MeetingRecord :=
  let interrupted := interruptedRecord meeting inventory
  { interrupted with artifacts := { interrupted.artifacts with captureSession } }

/-- A meeting that is salvaged has no transcript and no note. -/
theorem underived {meeting : MeetingRecord} {name : String} (hvalid : meeting.Valid B name)
    (hlifecycle : meeting.lifecycle = .captured ∨ meeting.lifecycle = .incomplete) :
    meeting.artifacts.currentTranscript = none ∧ meeting.artifacts.currentNote = none := by
  rcases hlifecycle with hlifecycle | hlifecycle
  · obtain ⟨-, htranscript, hnote, -⟩ := hvalid.captured hlifecycle
    exact ⟨htranscript, hnote⟩
  · have hrule := hvalid.lifecycle
    unfold validateLifecycle at hrule
    simp only [hlifecycle, refuseIf_eq_ok, not_or, Option.not_isSome_iff_eq_none] at hrule
    exact ⟨hrule.2.1, hrule.2.2⟩

/-- It is valid when a receipt goes with the audio found and only with it. -/
theorem boundRecord_valid {meeting : MeetingRecord} {name : String}
    {captureSession : Option ArtifactRef} (hvalid : meeting.Valid B name)
    (hlifecycle : meeting.lifecycle = .captured ∨ meeting.lifecycle = .incomplete)
    (htracks : FoundTracks inventory)
    (hreceipt : checkSome captureSession (fun session => validateRef session sessionRelative) =
      .ok ())
    (hagree : (inventory.microphone.isSome || inventory.system.isSome) = captureSession.isSome) :
    (boundRecord (salvageBase meeting) inventory captureSession).Valid B name := by
  obtain ⟨htranscript, hnote⟩ := underived hvalid hlifecycle
  have hbase : (salvageBase meeting).meetingId = meeting.meetingId ∧
      (salvageBase meeting).retention = meeting.retention ∧
      (salvageBase meeting).artifacts.attempt = meeting.artifacts.attempt ∧
      (salvageBase meeting).artifacts.ownership = meeting.artifacts.ownership ∧
      (salvageBase meeting).artifacts.currentTranscript = none ∧
      (salvageBase meeting).artifacts.currentNote = none := by
    unfold salvageBase
    split <;> exact ⟨rfl, rfl, rfl, rfl, htranscript, hnote⟩
  obtain ⟨hid, hretention, hattempt, hownership, hbaseTranscript, hbaseNote⟩ := hbase
  have hreferences := hvalid.references
  unfold validateReferences at hreferences
  simp only [check_bind_eq_ok] at hreferences
  obtain ⟨hattemptRule, hownershipRule, -⟩ := hreferences
  refine ⟨?_, ?_, ?_, ?_, ?_, ?_, ?_⟩
  · have hrule := hvalid.identity
    unfold validateIdentity at hrule ⊢
    rw [← hid] at hrule
    exact hrule
  · have hrule := hvalid.retentionRule
    unfold validateRetentionRule at hrule ⊢
    rw [← hretention] at hrule
    exact hrule
  · unfold validateReferences
    simp only [boundRecord, interruptedRecord, hattempt, hownership, hbaseTranscript, hbaseNote,
      check_bind_eq_ok]
    exact ⟨hattemptRule, hownershipRule, hreceipt, htracks.microphone, htracks.system, rfl, rfl⟩
  · unfold validateLifecycle
    simp only [boundRecord, interruptedRecord, hbaseTranscript, hbaseNote, check_bind_eq_ok]
    refine ⟨refuseIf_of_not (by simp), refuseIf_of_not (not_not_intro hagree), ?_⟩
    exact htracks.family _ rfl rfl
  · unfold validateAudioState
    simp only [boundRecord, interruptedRecord, MeetingArtifacts.anyAudio, Bool.or_eq_true]
    by_cases haudio : inventory.microphone.isSome = true ∨ inventory.system.isSome = true
    · simp only [if_pos haudio]
      exact refuseIf_of_not (by simp [haudio])
    · simp only [if_neg haudio]
      exact refuseIf_of_not (by simp [haudio])
  · exact refuseIf_of_not (by simp [boundRecord, interruptedRecord])
  · unfold validateUnfinished
    rw [check_bind_eq_ok]
    refine ⟨refuseIf_of_not (by simp [boundRecord, interruptedRecord]), ?_⟩
    rw [if_pos (by rfl), check_bind_eq_ok]
    simp only [boundRecord, interruptedRecord, MeetingArtifacts.anyAudio, Bool.or_eq_true]
    by_cases haudio : inventory.microphone.isSome = true ∨ inventory.system.isSome = true
    · simp only [if_pos haudio]
      exact ⟨refuseIf_of_not (by simp), refuseIf_of_not (by simp [haudio])⟩
    · simp only [if_neg haudio]
      exact ⟨refuseIf_of_not (by simp [haudio]), refuseIf_of_not (by simp)⟩

/-- A new receipt has the place of one. -/
theorem writeCaptureInterruptionReceipt_answers (nonce : Uuid) (meeting : MeetingRecord)
    (m : MeetingDirectory B) :
    Meets (writeCaptureInterruptionReceipt nonce meeting) m (fun _ => True)
      (fun session _ => validateRef session sessionRelative = .ok ()) (fun _ _ => True) := by
  unfold writeCaptureInterruptionReceipt
  refine Meets.bind_inspect (fun artifacts _ => ?_) fun _ _ => trivial
  refine Meets.bind_lift (fun _ _ => ?_) fun _ _ => trivial
  refine Meets.bind ((Meets.of_crash fun _ _ => trivial).mono (fun _ _ => trivial)
    (fun _ t _ => ?_) fun _ _ _ => trivial)
  exact Meets.inspect (fun session hsession => validateRef_artifactRef hsession) fun _ _ => trivial

/-- A receipt is settled when there is audio and only then. -/
theorem settleReceipt_answers (nonce : Uuid) (meeting : MeetingRecord)
    (inventory : InterruptedCaptureInventory) (m : MeetingDirectory B) :
    Meets (settleReceipt nonce meeting inventory) m (fun _ => True)
      (fun captureSession _ => checkSome captureSession
          (fun session => validateRef session sessionRelative) = .ok () ∧
        (captureSession.isSome = true ↔ meeting.retention.state = .retained))
      (fun _ _ => True) := by
  unfold settleReceipt
  split
  · rename_i hstate
    have hnew : ∀ t : MeetingDirectory B, Meets (do
        let session ← writeCaptureInterruptionReceipt nonce meeting
        pure (some session)) t (fun _ => True)
        (fun captureSession _ => checkSome captureSession
            (fun session => validateRef session sessionRelative) = .ok () ∧
          (captureSession.isSome = true ↔ meeting.retention.state = .retained))
        (fun _ _ => True) := fun t =>
      Meets.bind ((writeCaptureInterruptionReceipt_answers nonce meeting t).mono
        (fun _ _ => trivial) (fun session u hsession => Meets.pure ⟨hsession, by simp [hstate]⟩)
        fun _ _ _ => trivial)
    refine Meets.bind_inspect (fun discards _ => ?_) fun _ _ => trivial
    split
    · refine Meets.bind_inspect (fun session hsession => ?_) fun _ _ => trivial
      exact Meets.pure ⟨validateRef_artifactRef hsession, by simp [hstate]⟩
    · split
      · exact Meets.bind ((Meets.of_crash fun _ _ => trivial).mono (fun _ _ => trivial)
          (fun _ t _ => hnew t) fun _ _ _ => trivial)
      · exact hnew m
  · rename_i hstate
    exact Meets.pure ⟨rfl, by simp [hstate]⟩

/-- The record that a salvage leaves to be written is valid. -/
theorem bindInterruptedArtifacts_valid {nonce : Uuid} {meeting produced : MeetingRecord}
    {name : String} {m : MeetingDirectory B} (hvalid : meeting.Valid B name)
    (hlifecycle : meeting.lifecycle = .captured ∨ meeting.lifecycle = .incomplete)
    (hbound : ((bindInterruptedArtifacts nonce (salvageBase meeting)).exec m).result =
      .ok produced) : produced.Valid B name := by
  have hmeets : Meets (bindInterruptedArtifacts nonce (salvageBase meeting)) m (fun _ => True)
      (fun produced _ => produced.Valid B name) (fun _ _ => True) := by
    unfold bindInterruptedArtifacts
    refine Meets.bind_inspect (fun inventory hinventory => ?_) fun _ _ => trivial
    refine Meets.bind ((settleReceipt_answers nonce _ inventory m).mono (fun _ _ => trivial)
      (fun captureSession t hanswer => ?_) fun _ _ _ => trivial)
    refine Meets.bind_inspect (fun _ _ => ?_) fun _ _ => trivial
    apply Meets.pure
    apply boundRecord_valid hvalid hlifecycle (foundTracks_of_discovered hinventory) hanswer.1
    rw [Bool.eq_iff_iff, hanswer.2, Bool.or_eq_true]
    simp only [interruptedRecord]
    split
    · rename_i haudio
      exact ⟨fun _ => rfl, fun _ => haudio⟩
    · rename_i haudio
      exact ⟨fun h => absurd h haudio, fun h => by cases h⟩
  exact hmeets.ok produced hbound

end Recovery

/-! ## Every writer but one -/

namespace RecordWriter

/-- What has to be so beyond a writer's own checks: the commit of a request
would have to look at the pending operation, the state of the audio and the path
of the transcript. -/
def Settles (w : RecordWriter B) (meeting : MeetingRecord) : Prop :=
  match w with
  | .queueCommit _ transcript =>
    meeting.pendingStorageOperation = none ∧ meeting.retention.state = .retained ∧
      transcript.validateDigestNamed "transcript" "json" = .ok ()
  | _ => True

end RecordWriter

variable [DecidableEq B] in
/-- A writer that starts from a valid record, with its checks passed, leaves a
valid one to be written, and so `write_meeting` writes it, when and only when
the writer is not the commit of a request that misses one of its conditions. -/
theorem written_record_valid_iff {w : RecordWriter B} {name : String} {m : MeetingDirectory B}
    {meeting produced : MeetingRecord} (hmeeting : meeting.validate B name = .ok ())
    (h : w.Produces name m meeting produced) :
    (produced.validate B name = .ok () ↔ w.Settles meeting) ∧
      (((Recovery.writeMeeting name produced).exec m).result = .ok () ↔ w.Settles meeting) := by
  have hvalid := (MeetingRecord.validate_eq_ok B _ _).mp hmeeting
  have hproduced : produced.validate B name = .ok () ↔ w.Settles meeting := by
    cases h with
    | queueCommit _ _ _ _ _ _ hcaptured =>
      rw [MeetingRecord.validate_eq_ok]
      exact publishedRecord_valid_iff hvalid hcaptured
    | restorationApply hloaded hprepared =>
      exact iff_of_true
        (TranscriptRestorationCoordinator.produced_valid hmeeting hloaded hprepared) trivial
    | noteApply hloaded hprepared =>
      exact iff_of_true (NoteGenerationCoordinator.produced_valid hmeeting hloaded hprepared) trivial
    | retryPromotion hloaded =>
      rw [MeetingRecord.validate_eq_ok]
      exact iff_of_true (TranscriptRetry.promotedRecord_valid hloaded) trivial
    | transcriptDetach hpending hbinding =>
      rw [MeetingRecord.validate_eq_ok]
      exact iff_of_true (detachedRecord_valid hvalid hpending hbinding) trivial
    | transcriptDetachEnd hpending =>
      rw [MeetingRecord.validate_eq_ok]
      exact iff_of_true (detachEnd_valid hvalid hpending) trivial
    | audioDeletionPending _ hstate =>
      rw [MeetingRecord.validate_eq_ok]
      exact iff_of_true (Retention.deletingRecord_valid hvalid hstate) trivial
    | audioDeletionReleased hbinding hfinal =>
      rw [MeetingRecord.validate_eq_ok]
      exact iff_of_true (Retention.finalizeReleasedRecord_valid hvalid hbinding hfinal) trivial
    | captureSalvage hlifecycle hbound =>
      rw [MeetingRecord.validate_eq_ok]
      exact iff_of_true (Recovery.bindInterruptedArtifacts_valid hvalid hlifecycle hbound) trivial
    | handBack hchecked =>
      rw [MeetingRecord.validate_eq_ok]
      exact iff_of_true ((Recovery.checkTranscribable_eq_ok.mp hchecked).1.valid hvalid) trivial
  refine ⟨hproduced, ?_⟩
  rw [← hproduced]
  constructor
  · intro hwritten
    unfold Recovery.writeMeeting meetingBytes at hwritten
    cases hresult : produced.validate B name with
    | ok u => rfl
    | error e =>
      rw [Durable.bind_lift_of_error (e := e) _ _ (by rw [hresult]; rfl)] at hwritten
      cases hwritten
  · intro hvalidated
    rw [Recovery.writeMeeting_of_valid hvalidated]

/-! ## A transcript admitted while another is being deleted -/

namespace TranscriptionQueue

open Recovery (FinishedBytes finishedMeeting finishedDirectory)

/-- The captured meeting from which a transcript is being deleted. -/
def detachedMeeting : MeetingRecord :=
  { finishedMeeting with
    lifecycle := .captured, pendingStorageOperation := some .transcriptDeletionV1 }

def detachedTranscript : ArtifactRef := ⟨"transcript/" ++ emptySha256 ++ ".json", emptySha256⟩

def detachedRequest : TranscriptionRequest where
  schema := .v1
  requestId := sampleOperationId
  meetingId := sampleMeetingId.text
  captureSessionSha256 := emptySha256
  microphoneAudioSha256 := emptySha256
  systemAudioSha256 := emptySha256
  modelIdentity := "ggml-base.en"
  producer := none
  workerRuntimeIdentity := "worker"
  enqueuedAtEpochSeconds := 1754000000

def detachedResult : TranscriptionResult where
  schema := .v1
  requestId := sampleOperationId
  meetingId := sampleMeetingId.text
  transcript := detachedTranscript
  resultSha256 := emptySha256
  producedAtEpochSeconds := 1754000020

/-- Its directory, with a request whose result was admitted. -/
def detachedDirectory : MeetingDirectory FinishedBytes where
  record := some (toVecPretty detachedMeeting)
  temporaries := []
  tree := (finishedDirectory.tree.place (.entry ["transcript"]) (.directory 0o700)).place
    (.entry ["transcript", emptySha256 ++ ".json"]) (.file 0o600 (Document.raw "transcript" 10))
  queue := some (Directory.empty.put sampleOperationId
    ⟨(Drawer.empty.link .request (toVecPretty detachedRequest)).link .result
      (toVecPretty detachedResult), none⟩)

/-- The detached meeting, its request and the result for it pass their checks, and
the record with that result does not. -/
theorem checks_detached :
    detachedMeeting.validate FinishedBytes sampleMeetingId.text = .ok () ∧
    (publishedRecord detachedMeeting detachedTranscript).validate FinishedBytes
      sampleMeetingId.text = .error (.malformed "invalid pending transcript deletion state") ∧
    (Fits FinishedBytes detachedRequest ∧ Fits FinishedBytes detachedResult) ∧
    verifyRecordArtifacts detachedDirectory.reader detachedMeeting = .ok () ∧
    verifyArtifactRef detachedDirectory.reader detachedTranscript = .ok () := by
  decide +kernel

theorem validate_detached :
    detachedMeeting.validate FinishedBytes sampleMeetingId.text = .ok () := checks_detached.1

theorem loadItemOf_detached : loadItemOf sampleOperationId detachedDirectory =
    .ok ⟨detachedRequest, none, some detachedResult, none, none⟩ := by
  obtain ⟨-, -, ⟨hrequest, hresult⟩, -⟩ := checks_detached
  refine loadItemOf_eq_ok.mpr ⟨_, rfl, ?_⟩
  exact {
    isPrivate := rfl
    request := readJson_toVecPretty hrequest
    requestId := rfl
    claimsPrivate := rfl
    claim := rfl
    result := readOptionalJson_eq_some.mpr (readJson_toVecPretty hresult)
    terminal := rfl
    commit := rfl
    coherent := ⟨nofun, nofun, nofun⟩ }

theorem verifySource_detached :
    verifySource detachedDirectory.reader detachedMeeting detachedRequest = .ok () :=
  verifySource_eq_ok.mpr ⟨checks_detached.2.2.2.1, rfl, rfl, rfl⟩

theorem produces_detached :
    (RecordWriter.queueCommit sampleOperationId detachedTranscript).Produces sampleMeetingId.text
      detachedDirectory detachedMeeting (publishedRecord detachedMeeting detachedTranscript) :=
  .queueCommit loadItemOf_detached rfl verifySource_detached checks_detached.2.2.2.2 rfl rfl rfl

/-- The commit is refused by `write_meeting`: its result and its transcript stay
behind, and no later commit fares better while the deletion is pending. -/
theorem commit_refused_while_detached :
    detachedMeeting.validate FinishedBytes sampleMeetingId.text = .ok () ∧
    (RecordWriter.queueCommit sampleOperationId detachedTranscript).Produces sampleMeetingId.text
      detachedDirectory detachedMeeting (publishedRecord detachedMeeting detachedTranscript) ∧
    (publishedRecord detachedMeeting detachedTranscript).validate FinishedBytes
      sampleMeetingId.text ≠ .ok () ∧
    ∀ clock, (commitIn sampleMeetingId.text sampleOperationId clock).exec detachedDirectory =
      ⟨[], .error (.meeting (.malformed "invalid pending transcript deletion state"))⟩ := by
  obtain ⟨-, hrefused, -, -, htranscript⟩ := checks_detached
  have hloaded : loadMeetingOf sampleMeetingId.text detachedDirectory = .ok detachedMeeting :=
    mapError_eq_ok.mpr (loadMeeting_of_read validate_detached rfl)
  refine ⟨validate_detached, produces_detached, by rw [hrefused]; nofun, fun clock => ?_⟩
  unfold commitIn
  rw [Durable.bind_inspect_of_ok _ (by exact loadItemOf_detached),
    Durable.bind_lift_of_ok _ _ (orRefuse_some ..),
    Durable.bind_inspect_of_ok _ (by exact hloaded),
    Durable.bind_inspect_of_ok _ (by exact verifySource_detached),
    Durable.bind_inspect_of_ok (a := ()) _ (by exact mapError_eq_ok.mpr htranscript)]
  dsimp only
  rw [Durable.bind_lift_of_ok _ _ (refuseIf_of_not (by simp))]
  apply Durable.bind_of_eq_error _
  unfold publish
  rw [if_neg (by decide), Durable.bind_lift_of_ok _ _ (refuseIf_of_not (by decide))]
  apply Durable.bind_lift_of_error _ _
  have hbytes : meetingBytes (publishedRecord detachedMeeting detachedTranscript)
      sampleMeetingId.text = (Except.error
        (.malformed "invalid pending transcript deletion state") : Except _ FinishedBytes) := by
    unfold meetingBytes
    rw [hrefused]
    rfl
  exact congrArg (Except.mapError TranscriptionQueueError.meeting) hbytes

/-- The theorem where no deletion is pending. -/
theorem written_record_valid_iff_handedBack :
    (Recovery.handedBackRecord finishedMeeting).validate FinishedBytes sampleMeetingId.text =
        .ok () ∧
      ((Recovery.writeMeeting sampleMeetingId.text
        (Recovery.handedBackRecord finishedMeeting)).exec finishedDirectory).result = .ok () := by
  have h := written_record_valid_iff (loadMeeting_eq_ok Recovery.handedBack_finished.loaded)
    (.handBack Recovery.handedBack_finished.checked)
  exact ⟨h.1.mpr trivial, h.2.mpr trivial⟩

end TranscriptionQueue

end YawnApp.SessionCore
