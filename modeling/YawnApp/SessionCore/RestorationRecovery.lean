/-
  SessionCore/RestorationRecovery.lean --- a restoration survives crashes.

  A restoration that was admitted and whose request is stored goes through the
  phases of `OperationPhases`, whoever carries it on: the call that stored the
  request or any later pass of the recovery, each stopped anywhere.  One lemma
  for each program says which phases it takes from a given one, and the theorem
  at the end runs them: the operation ends committed, its view is current, and
  the current transcript changed once.
-/
import YawnApp.SessionCore.Recorded
import YawnApp.SessionCore.RestorationPhases

set_option autoImplicit false

namespace YawnApp.SessionCore

open YawnApp.Foundation Durable

variable {B : Type} [Platform B] [DecidableEq B]

namespace Restoration

open TranscriptRestorationCoordinator

/-! ## The programs, phase by phase -/

variable {c : Restoration B} {lib : Library B} {result : TranscriptRestorationResult}

theorem prepareCommit_of_published (h : c.Admitted) (hlib : c.Holds (.published result) lib)
    (committedAt : UInt64) :
    prepareCommit (lib.reader c.request.meetingId) committedAt c.request result =
      .ok (c.commitOf committedAt result, publishedMeeting c.meeting result,
        toVecPretty (publishedMeeting c.meeting result)) := by
  have hfound := h.found
  have hstored := hlib.result result rfl
  have hresult := inspectStoredResult_eq_ok hstored
  have hvalid := publishedMeeting_valid hfound.valid hfound.pending hfound.lifecycle
    hresult.validResult
  have hpending : requireNoPendingStorage (publishedMeeting c.meeting result) = .ok () :=
    refuseIf_of_not (by simp [publishedMeeting, hfound.pending])
  have hread : readBounded (lib.reader c.request.meetingId) "meeting.json" maxMeetingRecordBytes =
      .ok (toVecPretty (publishedMeeting c.meeting result) : B) := by
    unfold readBounded Library.reader
    rw [Files.reader_eq_ok.mpr hlib.record, ok_bind,
      refuseIf_of_not (Nat.not_lt.mpr (MeetingRecord.fits hvalid))]
    rfl
  unfold prepareCommit
  rw [hlib.load_of_published h rfl rfl, ok_bind, hpending, ok_bind,
    show requireCurrentTranscript (publishedMeeting c.meeting result) = .ok result.view from rfl,
    ok_bind, classify_published h hresult, ok_bind, refuseIf_of_not (by simp), ok_bind, hstored,
    ok_bind, hread, mapError_ok, ok_bind, refuseIf_of_not (by simp), ok_bind]
  rfl

/-- A published result is committed in one step. -/
theorem writeTerminalCommit_of_published (rt : RestorationRuntime B) (h : c.Admitted)
    (hlib : c.Holds (.published result) lib) :
    ∃ commit next, (writeTerminalCommit rt c.request result).exec lib = ⟨[next], .ok ()⟩ ∧
      c.Holds (.committed result commit) next := by
  have hresult := inspectStoredResult_eq_ok (hlib.result result rfl)
  have htime := nowEpochSeconds_ne_zero (rt.commitClock c.request.operationId)
  have hwrite := Receipts.writeCommit_of_resulted (B := B) (commitOf_valid hresult htime)
    hlib.stored.receipt commitOf_matches (commitOf_meeting h hresult htime)
  refine ⟨c.commitOf (nowEpochSeconds (rt.commitClock c.request.operationId)) result,
    { lib with operations := (lib.operations.insert c.request.operationId
        (OperationPhase.receipt (.restoration c.request) .restoration (.committed result _))) },
    ?_, hlib.stored.insert _, hlib.artifacts, hlib.record, hlib.result, ?_⟩
  · unfold writeTerminalCommit
    rw [bind_inspect_of_ok _ (by exact prepareCommit_of_published h hlib _)]
    exact mapError_of_eq_ok (Library.updateOperations_of_ok hwrite)
  · rintro _ _ ⟨⟩
    exact commitOf_receipts h hresult htime

/-- A stored result is published and then committed. -/
theorem applyResult_of_resulted (rt : RestorationRuntime B) (h : c.Admitted)
    (hlib : c.Holds (.resulted result) lib) :
    ∃ commit first next, (applyResult rt c.request result).exec lib = ⟨[first, next], .ok ()⟩ ∧
      c.Holds (.published result) first ∧ c.Holds (.committed result commit) next := by
  have hfound := h.found
  have hstored := hlib.result result rfl
  have hresult := inspectStoredResult_eq_ok hstored
  have hvalid := publishedMeeting_valid hfound.valid hfound.pending hfound.lifecycle
    hresult.validResult
  have hpending : requireNoPendingStorage c.meeting = .ok () :=
    refuseIf_of_not (by simp [hfound.pending])
  have hcurrent : requireCurrentTranscript c.meeting = .ok c.sourceRef := by
    unfold requireCurrentTranscript
    rw [hfound.current]
    rfl
  have hprepare : prepareApply (lib.reader c.request.meetingId) c.request result =
      .ok (publishedMeeting c.meeting result) := by
    unfold prepareApply
    rw [hlib.load_of_not_published h rfl, ok_bind, hpending, ok_bind, hcurrent, ok_bind,
      classify_resulted h hresult, ok_bind, refuseIf_of_not (by simp), ok_bind, hstored]
    rfl
  set first := lib.setMeeting c.request.meetingId ((lib.meetings c.request.meetingId).put
    "meeting.json" (toVecPretty (publishedMeeting c.meeting result))) with hfirst
  have hkeeps : (lib.meetings c.request.meetingId).KeepsArtifacts
      (first.meetings c.request.meetingId) := by
    rw [hfirst, Library.setMeeting_meetings_self]
    exact Files.keepsArtifacts_put _ _
  have hpublished : c.Holds (.published result) first := by
    refine ⟨⟨hlib.stored.receipt, hlib.stored.sole⟩, hlib.artifacts.trans hkeeps, ?_, ?_, ?_⟩
    · rw [hfirst, Library.setMeeting_meetings_self, Files.put_self]
      rfl
    · rintro _ ⟨⟩
      exact inspectStoredResult_mono hkeeps hstored
    · rintro _ _ ⟨⟩
  obtain ⟨commit, next, hcommit, hnext⟩ := writeTerminalCommit_of_published rt h hpublished
  refine ⟨commit, first, next, ?_, hpublished, hnext⟩
  unfold applyResult
  rw [bind_inspect_of_ok _ (by exact hprepare), bind_of_eq_ok_singleton _
    (mapError_of_eq_ok (Library.writeMeeting_of_valid hvalid lib)), ← hfirst, hcommit]

theorem requireCurrentSource_mono {old new : Files B} {meeting : MeetingRecord} {meetingId : Uuid}
    {digest : String} {index : UInt32} {expected : Option (Option NoteRevisionRef)}
    {source : InspectedTranscriptRevision} (hkeeps : old.KeepsArtifacts new)
    (h : requireCurrentSource old.reader meeting meetingId digest index expected = .ok source) :
    requireCurrentSource new.reader meeting meetingId digest index expected = .ok source := by
  unfold requireCurrentSource at h ⊢
  simp only [bind_eq_ok, mapError_eq_ok] at h ⊢
  obtain ⟨u, hpending, v, hid, current, hcurrent, w, hsame, x, hlifecycle, y, hnote, found, hfound,
    hrest⟩ := h
  exact ⟨u, hpending, v, hid, current, hcurrent, w, hsame, x, hlifecycle, y, hnote, found,
    inspectRevision_keeps hkeeps hfound, hrest⟩

theorem inspectRevision_of_requireCurrentSource {read : Reader B} {meeting : MeetingRecord}
    {meetingId : Uuid} {digest : String} {index : UInt32}
    {expected : Option (Option NoteRevisionRef)} {source : InspectedTranscriptRevision}
    (h : requireCurrentSource read meeting meetingId digest index expected = .ok source) :
    inspectRevision read meetingId digest = .ok source := by
  unfold requireCurrentSource at h
  simp only [bind_eq_ok, mapError_eq_ok] at h
  obtain ⟨-, -, -, -, -, -, -, -, -, -, -, -, found, hfound, -, -, -, -, -, -, heq⟩ := h
  cases heq
  exact hfound

/-- Files that are added keep an operation requested. -/
theorem Holds.added {files : Files B} (hlib : c.Holds .requested lib)
    (hfiles : (lib.meetings c.request.meetingId).Extends files)
    (hrecord : (lib.meetings c.request.meetingId "meeting.json").isSome) :
    c.Holds .requested (lib.setMeeting c.request.meetingId files) := by
  refine ⟨⟨hlib.stored.receipt, hlib.stored.sole⟩, ?_, ?_, ?_, ?_⟩
  · rw [Library.setMeeting_meetings_self]
    exact hlib.artifacts.trans hfiles.keepsArtifacts
  · rw [Library.setMeeting_meetings_self, ← hlib.record]
    obtain ⟨bytes, hbytes⟩ := Option.isSome_iff_exists.mp hrecord
    rw [hbytes]
    exact hfiles _ _ hbytes
  · rintro _ ⟨⟩
  · rintro _ _ ⟨⟩

end Restoration

/-- The worker of a call only adds files. -/
def RestorationRuntime.OnlyAddsFiles (rt : RestorationRuntime B) : Prop :=
  ∀ arguments files, ∀ t ∈ ((rt.worker arguments).exec files).trace, files.Extends t

/-- Asked for a request with these files, the worker returns a valid result. -/
def RestorationRuntime.AnswersValidly (rt : RestorationRuntime B)
    (request : TranscriptRestorationRequest) (files : Files B) : Prop :=
  let answer := (rt.worker (TranscriptRestorationCoordinator.workerArguments request)).exec files
  ∀ source, inspectRevision files.reader request.meetingId request.sourceTranscriptSha256 =
      .ok source →
    ∃ digests result, answer.result = .ok digests ∧
      TranscriptRestorationCoordinator.inspectWorkerResult (answer.final files).reader request source
        digests = .ok result

namespace Restoration

open TranscriptRestorationCoordinator

variable {c : Restoration B} {lib : Library B} {result : TranscriptRestorationResult}
  {rt : RestorationRuntime B} {phase : OperationPhase TranscriptRestorationResult}
  {request : TranscriptRestorationRequest} {arguments : RestoreWithheldTurnUiArgs}

/-- A request whose worker answers validly is carried through; otherwise it
stays requested. -/
theorem executeRequest_of_requested (h : c.Admitted) (hadds : rt.OnlyAddsFiles)
    (hlib : c.Holds .requested lib) :
    ∃ q, Follows c.Holds OperationPhase.Next .requested
        ((executeRequest rt c.request).exec lib).trace q ∧
      (rt.AnswersValidly c.request (lib.meetings c.request.meetingId) →
        q.isCommitted = true ∧ ((executeRequest rt c.request).exec lib).result = .ok ()) := by
  obtain ⟨source, hsource⟩ := h.source
  have hsource' := requireCurrentSource_mono hlib.artifacts hsource
  have hprepare : prepareExecute (lib.reader c.request.meetingId) c.request =
      .ok (source, workerArguments c.request) := by
    unfold prepareExecute
    rw [hlib.load_of_not_published h rfl, ok_bind,
      show lib.reader c.request.meetingId = (lib.meetings c.request.meetingId).reader from rfl,
      hsource', ok_bind, show (workerArguments c.request).validate = .ok () from
        validateDigest_source h.request]
    rfl
  have hrecord : (lib.meetings c.request.meetingId "meeting.json").isSome := by
    rw [hlib.record]
    exact isSome_of_loadMeeting h.record
  set files := lib.meetings c.request.meetingId with hfiles
  set answer := (rt.worker (workerArguments c.request)).exec files with hanswer
  set added := lib.setMeeting c.request.meetingId (answer.final files) with hset
  -- while the worker is at work, and after it, the operation is requested
  have htrace : ∀ t ∈ answer.trace.map (lib.setMeeting c.request.meetingId), c.Holds .requested t := by
    intro t ht
    obtain ⟨new, hnew, rfl⟩ := List.mem_map.mp ht
    exact hlib.added (hadds _ _ _ hnew) hrecord
  have hadded : c.Holds .requested added := by
    rcases answer.final_eq_or_mem files with hsame | hmem
    · rw [hset, hsame, hfiles, Library.setMeeting_self]
      exact hlib
    · exact hlib.added (hadds _ _ _ hmem) hrecord
  have hfollows := Follows.stay (OperationPhase.Next.stay _) htrace
  have hrevision := inspectRevision_of_requireCurrentSource hsource'
  unfold executeRequest
  rw [bind_inspect_of_ok _ (by exact hprepare)]
  cases hresult : answer.result with
  | error =>
    rw [Library.inMeeting_bind_of_error _ (by exact hresult)]
    refine ⟨.requested, hfollows, fun hvalid => ?_⟩
    obtain ⟨digests, -, hok, -⟩ := hvalid source hrevision
    exact absurd (hresult.symm.trans hok) (by simp)
  | ok digests =>
    rw [Library.inMeeting_bind_of_ok _ hset (by exact hresult)]
    cases hinspect : inspectWorkerResult (added.reader c.request.meetingId) c.request source
        digests with
    | error =>
      rw [bind_inspect_of_error _ (by exact hinspect)]
      refine ⟨.requested, by rw [List.append_nil]; exact hfollows, fun hvalid => ?_⟩
      obtain ⟨digests', result, hok, haccepted⟩ := hvalid source hrevision
      rw [← hanswer, hresult, Except.ok.injEq] at hok
      subst hok
      rw [hset, Library.reader, Library.setMeeting_meetings_self, haccepted] at hinspect
      cases hinspect
    | ok result =>
      have hstored : inspectStoredResult (added.reader c.request.meetingId) c.request result =
          .ok () := inspectStoredResult_of_worker (inspectRevision_of_requireCurrentSource
            (requireCurrentSource_mono hadded.artifacts hsource)) hinspect
      have hsound := inspectStoredResult_eq_ok hstored
      have hvalid : (StoredOperationResult.restoration result).validate = .ok () := by
        simp [StoredOperationResult.validate, hsound.validResult]
      have hwrite : Receipts.writeResult B c.request.operationId (.restoration result)
          added.operations = .ok (added.operations.insert c.request.operationId
            { request := .restoration c.request, result := some (.restoration result),
              commit := none }) := Receipts.writeResult_of_requested hvalid hsound.fits
                hadded.stored.receipt hsound.matchesRequest
      set operations := added.operations.insert c.request.operationId
        { request := .restoration c.request, result := some (.restoration result), commit := none }
      have hresulted : c.Holds (.resulted result) { added with operations } :=
        ⟨hadded.stored.insert (.resulted result), hadded.artifacts, hadded.record,
          by rintro _ ⟨⟩; exact hstored, by rintro _ _ ⟨⟩⟩
      obtain ⟨commit, first, next, happly, hfirst, hnext⟩ :=
        applyResult_of_resulted rt h hresulted
      rw [bind_inspect_of_ok _ (by exact hinspect), bind_of_eq_ok_singleton _
        (mapError_of_eq_ok (Library.updateOperations_of_ok hwrite)), happly]
      exact ⟨.committed result commit, hfollows.append (.cons (.result result) hresulted
        (.cons (.publish result) hfirst (.single (.commit result commit) hnext))),
        fun _ => ⟨rfl, rfl⟩⟩

/-- What a recovery makes of the receipts of a pending operation. -/
theorem resumeRequest_of_pending (h : c.Admitted) (hadds : rt.OnlyAddsFiles)
    (hlib : c.Holds phase lib) (hpending : phase.isCommitted = false) :
    let stored := (phase.receipt (.restoration c.request) .restoration).result
    ∃ q, Follows c.Holds OperationPhase.Next phase
        ((resumeRequest rt c.request stored).exec lib).trace q ∧
      (rt.AnswersValidly c.request (lib.meetings c.request.meetingId) → q.isCommitted = true) := by
  have hfound := h.found
  have hnone : requireNoPendingStorage c.meeting = .ok () :=
    refuseIf_of_not (by simp [hfound.pending])
  have hcurrent : requireCurrentTranscript c.meeting = .ok c.sourceRef := by
    unfold requireCurrentTranscript
    rw [hfound.current]
    rfl
  cases phase with
  | committed => simp [OperationPhase.isCommitted] at hpending
  | requested =>
    obtain ⟨source, hsource⟩ := h.source
    have hprepare : prepareRetry (lib.reader c.request.meetingId) c.request = .ok () := by
      unfold prepareRetry resumableMeeting
      rw [hlib.load_of_not_published h rfl, ok_bind, hnone, ok_bind, hcurrent, ok_bind]
      change (classify c.request none c.meeting c.sourceRef >>= _) = _
      rw [classify_requested h, ok_bind, refuseIf_of_not (by simp), ok_bind]
      exact congrArg (· >>= _) (requireCurrentSource_mono hlib.artifacts hsource)
    obtain ⟨q, hfollows, hvalid⟩ := executeRequest_of_requested h hadds hlib
    refine ⟨q, ?_, fun hanswer => (hvalid hanswer).1⟩
    change Follows _ _ _ ((resumeRequest rt c.request none).exec lib).trace q
    unfold resumeRequest
    rw [bind_inspect_of_ok _ (by exact hprepare), (bind_pure_apply _ _ _).1]
    exact hfollows
  | resulted result =>
    have hstored := hlib.result result rfl
    have hprepare : prepareResume (lib.reader c.request.meetingId) c.request result =
        .ok .applyValidatedResult := by
      unfold prepareResume resumableMeeting
      rw [hlib.load_of_not_published h rfl, ok_bind, hnone, ok_bind, hcurrent, ok_bind]
      change (inspectStoredResult _ c.request result >>= _) = _
      rw [hstored, ok_bind]
      exact classify_resulted h (inspectStoredResult_eq_ok hstored)
    obtain ⟨commit, first, next, happly, hfirst, hnext⟩ := applyResult_of_resulted rt h hlib
    refine ⟨.committed result commit, ?_, fun _ => rfl⟩
    change Follows _ _ _ ((resumeRequest rt c.request (some (.restoration result))).exec lib).trace _
    unfold resumeRequest
    rw [bind_inspect_of_ok _ (by exact hprepare), (bind_pure_apply _ _ _).1, happly]
    exact .cons (.publish result) hfirst (.single (.commit result commit) hnext)
  | published result =>
    have hstored := hlib.result result rfl
    have hprepare : prepareResume (lib.reader c.request.meetingId) c.request result =
        .ok .writeMissingCommit := by
      unfold prepareResume resumableMeeting
      rw [hlib.load_of_published h rfl rfl, ok_bind,
        show requireNoPendingStorage (publishedMeeting c.meeting result) = .ok () from
          refuseIf_of_not (by simp [publishedMeeting, hfound.pending]), ok_bind,
        show requireCurrentTranscript (publishedMeeting c.meeting result) = .ok result.view from rfl,
        ok_bind]
      change (inspectStoredResult _ c.request result >>= _) = _
      rw [hstored, ok_bind]
      exact classify_published h (inspectStoredResult_eq_ok hstored)
    obtain ⟨commit, next, hcommit, hnext⟩ := writeTerminalCommit_of_published rt h hlib
    refine ⟨.committed result commit, ?_, fun _ => rfl⟩
    change Follows _ _ _ ((resumeRequest rt c.request (some (.restoration result))).exec lib).trace _
    unfold resumeRequest
    rw [bind_inspect_of_ok _ (by exact hprepare), (bind_pure_apply _ _ _).1, hcommit]
    exact .single (.commit result commit) hnext

/-- A round that finds one pending restoration resumes it. -/
theorem recoverMeeting_of_pending {meetingId id : Uuid} {receipt : StoredOperationReceipt}
    (hfree : rt.held meetingId = false)
    (hlist : nonterminalForMeeting lib.operations meetingId = [(id, receipt)])
    (hrequest : receipt.request = .restoration request) :
    ((recoverMeeting rt meetingId).exec lib).trace =
      ((resumeRequest rt request receipt.result).exec lib).trace := by
  unfold recoverMeeting acquire
  rw [refuseIf_of_not (by simp [hfree])]
  simp only
  rw [bind_look, hlist]
  simp only [hrequest]
  rw [bind_of_ok _ (show ((Durable.attempt (resumeRequest rt request receipt.result)).exec
    lib).result = .ok _ from rfl)]
  cases ((resumeRequest rt request receipt.result).exec lib).result <;> exact List.append_nil _

/-- One round of the recovery loop, on the meeting of the operation or another. -/
theorem recoverMeeting_follows (h : c.Admitted) (hadds : rt.OnlyAddsFiles)
    (hlib : c.Holds phase lib) (meetingId : Uuid) :
    ∃ q, Follows c.Holds OperationPhase.Next phase ((recoverMeeting rt meetingId).exec lib).trace q ∧
      (meetingId = c.request.meetingId → rt.held meetingId = false →
        rt.AnswersValidly c.request (lib.meetings c.request.meetingId) → q.isCommitted = true) := by
  by_cases hmeeting : meetingId = c.request.meetingId
  · subst hmeeting
    cases hheld : rt.held c.request.meetingId with
    | true =>
      refine ⟨phase, ?_, fun _ hfree => by cases hfree⟩
      simp only [recoverMeeting, acquire, hheld, refuseIf_of]
      exact .nil phase
    | false =>
      cases hcommitted : phase.isCommitted with
      | true =>
        refine ⟨phase, ?_, fun _ _ _ => hcommitted⟩
        have hnil : nonterminalForMeeting lib.operations c.request.meetingId = [] :=
          hlib.stored.nonterminal_eq_nil hcommitted
        simp only [recoverMeeting, acquire, hheld]
        rw [refuseIf_of_not (by simp)]
        simp only
        rw [bind_look, hnil]
        exact .nil phase
      | false =>
        have hsingle := hlib.stored.nonterminal_eq hcommitted
        obtain ⟨q, hfollows, hvalid⟩ := resumeRequest_of_pending h hadds hlib hcommitted
        refine ⟨q, ?_, fun _ _ hanswer => hvalid hanswer⟩
        rw [recoverMeeting_of_pending hheld hsingle (OperationPhase.receipt_request _ _ phase)]
        exact hfollows
  · refine ⟨phase, Follows.stay (.stay phase) fun t ht => ?_, fun hsame => absurd hsame hmeeting⟩
    exact hlib.of_leavesAlone (moves_recoverMeeting (Library.leavesAlone_frame hmeeting) lib t ht)

/-- A round of the loop reports, whatever it finds. -/
theorem recoverMeeting_answers (rt : RestorationRuntime B) (meetingId : Uuid) :
    Answers (recoverMeeting rt meetingId) := by
  unfold recoverMeeting
  split
  · exact Answers.pure _
  · apply Answers.bind (Answers.look _)
    intro pending
    split
    · split
      · exact Answers.pure _
      · apply Answers.bind (Answers.attempt _)
        intro outcome
        cases outcome <;> exact Answers.pure _
    · exact Answers.pure _

theorem mem_restorationMeetings {operations : Receipts} {id : Uuid} {r : StoredOperationReceipt}
    (hr : operations.lookup id = some r) (hpending : r.nonterminal = true)
    (hrequest : r.request = .restoration request) :
    request.meetingId ∈ restorationMeetings operations := by
  unfold restorationMeetings
  rw [List.mem_insertionSort, List.mem_dedup, List.mem_filterMap]
  refine ⟨⟨id, r⟩, AList.mem_lookup_iff.mp hr, ?_⟩
  simp only [hpending, hrequest]

/-- A pass of the recovery follows the phases. -/
theorem recoverIncomplete_follows (h : c.Admitted) (hadds : rt.OnlyAddsFiles)
    (hlib : c.Holds phase lib) :
    ∃ q, Follows c.Holds OperationPhase.Next phase ((recoverIncomplete rt).exec lib).trace q := by
  unfold recoverIncomplete
  rw [bind_look]
  refine follows_forEach (recoverMeeting_answers rt) (fun meetingId p s hs => ?_) _ phase lib hlib
  obtain ⟨q, hq, -⟩ := recoverMeeting_follows h hadds hs meetingId
  exact ⟨q, hq⟩

/-- If the meeting is free and the worker answers validly, the pass commits. -/
theorem recoverIncomplete_commits (h : c.Admitted) (hadds : rt.OnlyAddsFiles)
    (hlib : c.Holds phase lib) (hfree : rt.held c.request.meetingId = false)
    (hanswers : rt.AnswersValidly c.request (lib.meetings c.request.meetingId)) :
    ∃ q, Follows c.Holds OperationPhase.Next phase ((recoverIncomplete rt).exec lib).trace q ∧
      q.isCommitted = true := by
  cases hcommitted : phase.isCommitted with
  | true =>
    obtain ⟨q, hq⟩ := recoverIncomplete_follows h hadds hlib
    exact ⟨q, hq, OperationPhase.isCommitted_of_reaches hq.reaches hcommitted⟩
  | false =>
    have hmem : c.request.meetingId ∈ restorationMeetings lib.operations := by
      refine mem_restorationMeetings hlib.stored.receipt ?_ (OperationPhase.receipt_request _ _ phase)
      rw [OperationPhase.nonterminal_receipt, hcommitted]
      rfl
    unfold recoverIncomplete
    rw [bind_look]
    refine follows_forEach_to (P := fun q => q.isCommitted = true)
      (R := fun s => s.meetings c.request.meetingId = lib.meetings c.request.meetingId)
      (fun _ _ => OperationPhase.Next.isCommitted)
      (recoverMeeting_answers rt) (fun meetingId p s hs => ?_) (fun p s hs hsame => ?_)
      (fun meetingId hother s hsame => ?_) hmem phase lib hlib rfl
    · obtain ⟨q, hq, -⟩ := recoverMeeting_follows h hadds hs meetingId
      exact ⟨q, hq⟩
    · obtain ⟨q, hq, hfinish⟩ := recoverMeeting_follows h hadds hs c.request.meetingId
      exact ⟨q, hq, hfinish rfl hfree (hsame ▸ hanswers)⟩
    · have hframe := Library.leavesAlone_frame (B := B) hother
      have hround : Moves _ (recoverMeeting rt meetingId) := moves_recoverMeeting hframe
      exact (hround.final hframe.refl s).1.trans hsame

/-! ## The call that stores the request -/

theorem admitted_of_admitRequest (h : admitRequest rt arguments lib = .ok request) :
    ∃ meeting, Admitted ⟨request, meeting, lib.meetings request.meetingId⟩ := by
  unfold admitRequest at h
  simp only [bind_eq_ok, mapError_eq_ok] at h
  obtain ⟨_, -, _, -, _, -, meeting, hload, source, hsource, _, hvalid, heq⟩ := h
  cases heq
  unfold loadAndVerifyMeeting at hload
  simp only [bind_eq_ok, mapError_eq_ok] at hload
  obtain ⟨found, hfound, _, hartifacts, heq⟩ := hload
  cases heq
  refine ⟨meeting, hvalid, hfound, hartifacts, source, ?_⟩
  unfold requireCurrentSource at hsource ⊢
  simpa [Library.reader] using hsource

/-- The call that is admitted stores its request and executes it. -/
theorem restoreWithheldTurn_follows (hallowed : admitRequest rt arguments lib = .ok request)
    (hfresh : lib.operations.lookup request.operationId = none) (hadds : rt.OnlyAddsFiles) :
    ∃ meeting stored rest q,
      ((restoreWithheldTurn rt arguments).exec lib).trace = stored :: rest ∧
      Admitted ⟨request, meeting, lib.meetings request.meetingId⟩ ∧
      stored.meetings = lib.meetings ∧
      Holds ⟨request, meeting, lib.meetings request.meetingId⟩ .requested stored ∧
      Follows (Holds ⟨request, meeting, lib.meetings request.meetingId⟩) OperationPhase.Next
        .requested rest q ∧
      (rt.AnswersValidly request (lib.meetings request.meetingId) → q.isCommitted = true) := by
  obtain ⟨meeting, hadmitted⟩ := admitted_of_admitRequest hallowed
  have hvalid : (StoredOperationRequest.restoration request).validate = .ok () := by
    simp [StoredOperationRequest.validate, hadmitted.request]
  have hwrite : Receipts.writeRequest B (.restoration request) lib.operations =
      .ok (lib.operations.insert request.operationId
        { request := .restoration request, result := none, commit := none }) :=
    Receipts.writeRequest_of_fresh hvalid hfresh
  set stored : Library B := { lib with
    operations := (lib.operations.insert request.operationId
      { request := .restoration request, result := none, commit := none }) } with hstored
  have hnone := nothing_pending_of_admitted hallowed
  have hholds : Holds ⟨request, meeting, lib.meetings request.meetingId⟩ .requested stored := by
    refine ⟨⟨AList.lookup_insert _, ?_⟩, Files.KeepsArtifacts.refl _, rfl, ?_, ?_⟩
    · refine Receipts.Sole.insert (fun other r hr hpending hmeeting => ?_) _
      have hmem := mem_nonterminalForMeeting.mpr ⟨hr, hpending, hmeeting⟩
      rw [hnone] at hmem
      cases hmem
    · rintro _ ⟨⟩
    · rintro _ _ ⟨⟩
  obtain ⟨q, hfollows, hfinish⟩ := executeRequest_of_requested hadmitted hadds hholds
  refine ⟨meeting, stored, _, q, ?_, hadmitted, rfl, hholds, hfollows, fun h => (hfinish h).1⟩
  unfold restoreWithheldTurn
  rw [bind_inspect_of_ok _ hallowed, bind_of_eq_ok_singleton _
    (mapError_of_eq_ok (Library.updateOperations_of_ok hwrite)), ← hstored]
  rw [(bind_pure_apply _ _ _).1]

/-- A call that stops right after its first step has changed no meeting. -/
theorem meetings_of_stored (hallowed : admitRequest rt arguments lib = .ok request)
    (hfresh : lib.operations.lookup request.operationId = none) (hadds : rt.OnlyAddsFiles) :
    (run ProductCall.states lib [(.restoreWithheldTurn rt arguments, 1)]).meetings =
      lib.meetings := by
  obtain ⟨meeting, stored, rest, q, htrace, -, hmeetings, -⟩ :=
    restoreWithheldTurn_follows hallowed hfresh hadds
  have hstates : ProductCall.states (.restoreWithheldTurn rt arguments) lib = stored :: rest := htrace
  rw [run_cons, run_nil, cut, hstates]
  exact hmeetings

/-! ## The whole run -/

/-- A pass that is not interrupted, finds the meeting free and has a worker that
returns a valid result, if it is asked for one. -/
structure FinishingPass (request : TranscriptRestorationRequest) (lib : Library B)
    (pass : RestorationRuntime B × Nat) : Prop where
  uninterrupted : ((recoverIncomplete pass.1).exec lib).trace.length ≤ pass.2
  free : pass.1.held request.meetingId = false
  answers : pass.1.AnswersValidly request (lib.meetings request.meetingId)

/-- A pass that nothing interrupts. -/
def wholePass (rt : RestorationRuntime B) (lib : Library B) : RestorationRuntime B × Nat :=
  (rt, ((recoverIncomplete rt).exec lib).trace.length)

theorem finishingPass_of_answers (hfree : rt.held request.meetingId = false)
    (hanswers : rt.AnswersValidly request (lib.meetings request.meetingId)) :
    FinishingPass request lib (wholePass rt lib) := ⟨Nat.le_refl _, hfree, hanswers⟩

/-- Passes of the recovery, as calls. -/
def passes (attempts : List (RestorationRuntime B × Nat)) : List (ProductCall B × Nat) :=
  attempts.map fun pass => (.recoverRestorations pass.1, pass.2)

/-- The run finishes the operation: the call is not interrupted and its worker
returns a valid result, or one of the passes is a finishing one. -/
def FinishingRun (rt : RestorationRuntime B) (arguments : RestoreWithheldTurnUiArgs)
    (request : TranscriptRestorationRequest) (lib : Library B) (steps : Nat)
    (attempts : List (RestorationRuntime B × Nat)) : Prop :=
  (((restoreWithheldTurn rt arguments).exec lib).trace.length ≤ steps ∧
      rt.AnswersValidly request (lib.meetings request.meetingId)) ∨
    ∃ before last after, attempts = before ++ last :: after ∧
      FinishingPass request
        (run ProductCall.states lib ((.restoreWithheldTurn rt arguments, steps) :: passes before)) last

/-- What the library holds of a restoration that ended. -/
def Ended (request : TranscriptRestorationRequest) (lib : Library B) : Prop :=
  ∃ result commit meeting bytes,
    lib.operations.lookup request.operationId =
      some ⟨.restoration request, some (.restoration result), some commit⟩ ∧
    lib.meetings request.meetingId "meeting.json" = some bytes ∧
    loadMeeting (lib.reader request.meetingId) request.meetingId.text = .ok meeting ∧
    meeting.artifacts.currentTranscript = some result.view ∧
    meeting.artifacts.currentNote = none ∧ meeting.lifecycle = .transcriptReady ∧
    validateRestorationReceipts request result commit meeting bytes = .ok ()

theorem follows_pass (h : c.Admitted) {attempts : List (RestorationRuntime B × Nat)}
    (hadds : ∀ pass ∈ attempts, pass.1.OnlyAddsFiles) :
    ∀ attempt ∈ passes attempts, ∀ p s, c.Holds p s →
      ∃ q, Follows c.Holds OperationPhase.Next p (ProductCall.states attempt.1 s) q := by
  intro attempt hattempt p s hs
  obtain ⟨pass, hpass, rfl⟩ := List.mem_map.mp hattempt
  exact recoverIncomplete_follows h (hadds pass hpass) hs

/-- A committed restoration has ended as it should. -/
theorem Holds.ended {result : TranscriptRestorationResult} {commit : MeetingOperationCommit}
    (hlib : c.Holds (.committed result commit) lib) (h : c.Admitted) : Ended c.request lib := by
  have hload := hlib.load_of_published h rfl rfl
  unfold loadAndVerifyMeeting at hload
  simp only [bind_eq_ok, mapError_eq_ok] at hload
  obtain ⟨found, hfound, _, -, heq⟩ := hload
  cases heq
  exact ⟨result, commit, _, _, hlib.stored.receipt, hlib.record, hfound, rfl, rfl, rfl,
    hlib.commit result commit rfl⟩

omit [DecidableEq B] in
theorem currentTranscript_of_load [DecidableEq B] {meetingId : Uuid} {meeting : MeetingRecord}
    (h : loadAndVerifyMeeting (lib.reader meetingId) meetingId = .ok meeting) :
    lib.currentTranscript meetingId = meeting.artifacts.currentTranscript := by
  unfold loadAndVerifyMeeting at h
  simp only [bind_eq_ok, mapError_eq_ok] at h
  obtain ⟨found, hfound, _, -, heq⟩ := h
  cases heq
  unfold Library.currentTranscript
  rw [hfound]

/-- Up to the end of a run whose first call stored the request, the current
transcript changes once. -/
theorem changesOnce_of_follows (h : c.Admitted) {start stored : Library B}
    (hmeetings : stored.meetings = start.meetings) (hstored : c.Holds .requested stored)
    {rest : List (Library B)} {result : TranscriptRestorationResult}
    {commit : MeetingOperationCommit} (hcommitted : c.Holds (.committed result commit) lib)
    (hfollows : Follows c.Holds OperationPhase.Next .requested rest (.committed result commit)) :
    ChangesOnce (Library.currentTranscript c.request.meetingId) start (stored :: rest) := by
  have hsource : ∀ {phase : OperationPhase TranscriptRestorationResult} {t : Library B},
      c.Holds phase t → phase.isPublished = false →
        t.currentTranscript c.request.meetingId = some c.sourceRef := by
    intro phase t ht hphase
    rw [currentTranscript_of_load (ht.load_of_not_published h hphase)]
    exact h.found.current
  have hstart : start.currentTranscript c.request.meetingId = some c.sourceRef := by
    rw [← hsource hstored rfl]
    unfold Library.currentTranscript Library.reader
    rw [hmeetings]
  refine Follows.changesOnce (.cons (.stay .requested) hstored hfollows)
    (P := fun phase => phase.isPublished = true) (fun _ _ => OperationPhase.Next.isPublished)
    (by simp [OperationPhase.isPublished]) rfl (some result.view) ?_ ?_ ?_
  · intro phase t ht hphase
    rw [hstart, hsource ht (by simpa using hphase)]
  · intro phase t ht hphase hreaches
    have hresult : phase.result? = some result := by
      obtain ⟨found, hfound⟩ : ∃ found, phase.result? = some found := by
        cases phase <;> simp_all [OperationPhase.isPublished, OperationPhase.result?]
      rw [hfound, ← OperationPhase.result?_of_reaches hreaches hfound]
      rfl
    rw [currentTranscript_of_load (ht.load_of_published h hphase hresult)]
    rfl
  · rw [hstart]
    intro heq
    have hsame := congrArg ArtifactRef.sha256 (Option.some.inj heq)
    exact (inspectStoredResult_eq_ok (hcommitted.result result rfl)).successor hsame

end Restoration

open TranscriptRestorationCoordinator Restoration in
/-- A restoration that was admitted and whose request was stored is applied
exactly once.  The call may stop after any of its steps, and so may any pass of
the recovery; their workers only add files.  If some pass is not interrupted,
finds the meeting free and has a worker that returns a valid result, the
operation is committed, its view is the current transcript of a record without
note, its receipts belong together, and over the whole run the current
transcript changed once. -/
theorem restoration_applied_exactly_once {rt : RestorationRuntime B}
    {arguments : RestoreWithheldTurnUiArgs} {lib : Library B}
    {request : TranscriptRestorationRequest} (hallowed : admitRequest rt arguments lib = .ok request)
    (hfresh : lib.operations.lookup request.operationId = none) {steps : Nat} (hsteps : 0 < steps)
    {attempts : List (RestorationRuntime B × Nat)} (hadds : rt.OnlyAddsFiles)
    (hpasses : ∀ pass ∈ attempts, pass.1.OnlyAddsFiles)
    (hfinish : FinishingRun rt arguments request lib steps attempts) :
    let calls := (ProductCall.restoreWithheldTurn rt arguments, steps) :: passes attempts
    Ended request (run ProductCall.states lib calls) ∧
      ChangesOnce (Library.currentTranscript request.meetingId) lib
        (history ProductCall.states lib calls) := by
  obtain ⟨meeting, stored, rest, q, htrace, hadmitted, hmeetings, hstored, hfollows, hdone⟩ :=
    restoreWithheldTurn_follows hallowed hfresh hadds
  set c : Restoration B := ⟨request, meeting, lib.meetings request.meetingId⟩
  have hstates : ProductCall.states (.restoreWithheldTurn rt arguments) lib = stored :: rest := htrace
  obtain ⟨r, later, hhistory, hr, hrlib, hcommitted⟩ := follows_started ProductCall.states
    (P := fun q => q.isCommitted = true) (fun _ _ => OperationPhase.Next.isCommitted) hstates hstored
    hfollows hsteps (follows_pass hadmitted hpasses) <| by
      rcases hfinish with ⟨hwhole, hanswer⟩ | ⟨before, last, after, rfl, hlast⟩
      · exact .inl ⟨hwhole, hdone hanswer⟩
      · refine .inr ⟨passes before, (.recoverRestorations last.1, last.2), passes after,
          by simp [passes], hlast.uninterrupted, fun q hq => ?_⟩
        exact recoverIncomplete_commits hadmitted
          (hpasses last (List.mem_append_right _ List.mem_cons_self)) hq hlast.free hlast.answers
  cases r with
  | requested | resulted | published => cases hcommitted
  | committed result commit =>
    refine ⟨hrlib.ended hadmitted, ?_⟩
    rw [hhistory]
    exact changesOnce_of_follows hadmitted hmeetings hstored hrlib hr

/-! ## A restoration in a concrete library -/

/-- A transcript of one turn, which is withheld. -/
def sampleBaseTranscript : Value := .object
  [("schema", .string "capture-transcript/1"), ("source", .string "local"),
    ("attribution", .string "channel"), ("capture_health", .object []),
    ("turns", .array [.object [("start", .natural 0), ("end", .natural 2),
      ("text", .string "hello"), ("gated", .bool true)]])]

def sampleBaseSha256 : String := "1f0d3c5b7a99e8f60412233445566778899aabbccddeeff00112233445566778"

def sampleViewSha256 : String := "2e1c4d6f8b0a9f7e1523344556677889900aabbccddeeff0112233445566778a"

/-- The view that shows it. -/
def sampleView : TranscriptView where
  schema := .v1
  meetingId := sampleMeetingId
  baseTranscriptSha256 := sampleBaseSha256
  parentTranscriptSha256 := sampleBaseSha256
  restoredSourceTurnIndices := [0]

/-- Byte strings over which the two transcripts have digests of their own. -/
abbrev SampleBytes : Type := Recorded
  [(.compact sampleBaseTranscript, sampleBaseSha256),
    (.pretty (Serde.toValue sampleView), sampleViewSha256)]

def sampleMeeting : MeetingRecord where
  schema := .v2
  meetingId := sampleMeetingId.text
  lifecycle := .transcriptReady
  retention := {
    rule := .untilManualDeletion
    policySha256 := emptySha256
    nextDeletionAtEpochSeconds := none
    state := .retained
    deletionReceipt := none }
  artifacts := {
    attempt := ⟨"attempt.json", emptySha256⟩
    ownership := some ⟨"ownership.json", emptySha256⟩
    captureSession := some ⟨"capture/session.json", emptySha256⟩
    microphoneAudio := some ⟨microphoneAudioPath, emptySha256⟩
    systemAudio := some ⟨systemAudioPath, emptySha256⟩
    currentTranscript := some ⟨revisionPath sampleBaseSha256, sampleBaseSha256⟩
    currentNote := none }
  pendingStorageOperation := none

def sampleFiles : Files SampleBytes := fun path =>
  if path = "meeting.json" then some (toVecPretty sampleMeeting)
  else if path = revisionPath sampleBaseSha256 then some (Document.compact sampleBaseTranscript)
  else if path ∈ ["attempt.json", "ownership.json", "capture/session.json", microphoneAudioPath,
      systemAudioPath] then some Document.empty
  else none

/-- A library with that meeting and nothing pending. -/
def sampleLibrary : Library SampleBytes :=
  Library.opened fun id => if id = sampleMeetingId then sampleFiles else fun _ => none

def sampleRestoreDigests : Digests := List.toFinmap
  [⟨"base-transcript", sampleBaseSha256⟩, ⟨"parent-transcript", sampleBaseSha256⟩,
    ⟨"transcript", sampleViewSha256⟩]

/-- A worker that puts the view in its place, unless there is a file already,
and reports it. -/
def sampleRestoreWorker : Durable (Files SampleBytes) TranscriptRestoreWorkerError Digests := do
  Durable.write fun files =>
    if (files (revisionPath sampleViewSha256)).isSome then files
    else files.put (revisionPath sampleViewSha256) (toVecPretty sampleView)
  return sampleRestoreDigests

def sampleRestoreRuntime : RestorationRuntime SampleBytes where
  held _ := false
  worker _ := sampleRestoreWorker
  operationId := sampleOperationId
  requestClock := 1754000000
  commitClock _ := 1754000060

def sampleRestoreArguments : RestoreWithheldTurnUiArgs where
  meetingId := sampleMeetingId
  sourceTranscriptSha256 := sampleBaseSha256
  sourceTurnIndex := 0

def sampleRestoreRequest : TranscriptRestorationRequest where
  schema := .v1
  operationId := sampleOperationId
  meetingId := sampleMeetingId
  requestedAtEpochSeconds := 1754000000
  sourceTranscriptSha256 := sampleBaseSha256
  sourceTurnIndex := 0
  priorNote := none

def sampleSource : InspectedTranscriptRevision where
  digest := sampleBaseSha256
  baseTranscriptSha256 := sampleBaseSha256
  headView := none
  restoredSourceTurnIndices := []
  withheldSourceTurnIndices := {0}

def sampleRestoreResult : TranscriptRestorationResult where
  schema := .v1
  operationId := sampleOperationId
  meetingId := sampleMeetingId
  sourceTranscriptSha256 := sampleBaseSha256
  view := ⟨revisionPath sampleViewSha256, sampleViewSha256⟩
  baseTranscriptSha256 := sampleBaseSha256
  parentTranscriptSha256 := sampleBaseSha256
  restoredSourceTurnIndices := [0]

section Sample

open TranscriptRestorationCoordinator Restoration

theorem loadMeeting_sample :
    loadMeeting sampleFiles.reader sampleMeetingId.text = .ok sampleMeeting :=
  loadMeeting_of_written (show sampleMeeting.validate SampleBytes sampleMeetingId.text = .ok () by
    decide) rfl

/-- The files beside the record are the ones it names, and its transcript is a
source to restore from. -/
theorem checks_sample :
    verifyRecordArtifacts sampleFiles.reader sampleMeeting = .ok () ∧
    requireCurrentSource sampleFiles.reader sampleMeeting sampleMeetingId sampleBaseSha256 0 none =
      .ok sampleSource ∧
    inspectWorkerResult ((sampleRestoreWorker.exec sampleFiles).final sampleFiles).reader
      sampleRestoreRequest sampleSource sampleRestoreDigests = .ok sampleRestoreResult := by
  decide +kernel

theorem verifyRecordArtifacts_sample :
    verifyRecordArtifacts sampleFiles.reader sampleMeeting = .ok () := checks_sample.1

theorem loadAndVerifyMeeting_sample :
    loadAndVerifyMeeting sampleFiles.reader sampleMeetingId = .ok sampleMeeting := by
  unfold loadAndVerifyMeeting
  rw [loadMeeting_sample, mapError_ok, ok_bind, verifyRecordArtifacts_sample]
  rfl

theorem requireCurrentSource_sample : requireCurrentSource sampleFiles.reader sampleMeeting
    sampleMeetingId sampleBaseSha256 0 none = .ok sampleSource := checks_sample.2.1

theorem admitRequest_sample :
    admitRequest sampleRestoreRuntime sampleRestoreArguments sampleLibrary =
      .ok sampleRestoreRequest := by
  unfold admitRequest
  simp only [bind_eq_ok]
  exact ⟨(), by decide, (), rfl, (), rfl, sampleMeeting, loadAndVerifyMeeting_sample, sampleSource,
    requireCurrentSource_sample, (), by decide, rfl⟩

theorem onlyAddsFiles_sample : sampleRestoreRuntime.OnlyAddsFiles := by
  intro arguments files t ht
  have htrace : (sampleRestoreWorker.exec files).trace =
      [if (files (revisionPath sampleViewSha256)).isSome then files
        else files.put (revisionPath sampleViewSha256) (toVecPretty sampleView)] := rfl
  rw [show sampleRestoreRuntime.worker arguments = sampleRestoreWorker from rfl, htrace,
    List.mem_singleton] at ht
  subst ht
  intro path bytes hpath
  split
  · exact hpath
  · rename_i habsent
    rw [Files.put_of_ne _ (by rintro rfl; simp [hpath] at habsent)]
    exact hpath

theorem inspectWorkerResult_sample : inspectWorkerResult
    ((sampleRestoreWorker.exec sampleFiles).final sampleFiles).reader sampleRestoreRequest
      sampleSource sampleRestoreDigests = .ok sampleRestoreResult := checks_sample.2.2

theorem answersValidly_sample :
    sampleRestoreRuntime.AnswersValidly sampleRestoreRequest sampleFiles := by
  intro source hsource
  have hsame : sampleSource = source := by
    have h := inspectRevision_of_requireCurrentSource requireCurrentSource_sample
    exact Except.ok.inj (h.symm.trans hsource)
  subst hsame
  exact ⟨sampleRestoreDigests, sampleRestoreResult, rfl, inspectWorkerResult_sample⟩

/-- The library after a call that stopped right after it stored its request. -/
def sampleCrashed : Library SampleBytes :=
  run ProductCall.states sampleLibrary
    [(.restoreWithheldTurn sampleRestoreRuntime sampleRestoreArguments, 1)]

theorem finishingPass_sample :
    FinishingPass sampleRestoreRequest sampleCrashed (wholePass sampleRestoreRuntime sampleCrashed) := by
  apply finishingPass_of_answers rfl
  have hmeetings : sampleCrashed.meetings = sampleLibrary.meetings :=
    meetings_of_stored admitRequest_sample rfl onlyAddsFiles_sample
  rw [hmeetings]
  exact answersValidly_sample

/-- A pass after the crash finishes the restoration. -/
theorem restoration_applied_after_crash :
    Ended sampleRestoreRequest (run ProductCall.states sampleLibrary
      ((.restoreWithheldTurn sampleRestoreRuntime sampleRestoreArguments, 1) ::
        passes [wholePass sampleRestoreRuntime sampleCrashed])) := by
  have hpasses : ∀ attempt ∈ [wholePass sampleRestoreRuntime sampleCrashed],
      attempt.1.OnlyAddsFiles := by
    intro attempt hattempt
    rw [List.mem_singleton.mp hattempt]
    exact onlyAddsFiles_sample
  have hfinish : FinishingRun sampleRestoreRuntime sampleRestoreArguments sampleRestoreRequest
      sampleLibrary 1 [wholePass sampleRestoreRuntime sampleCrashed] :=
    .inr ⟨[], _, [], rfl, finishingPass_sample⟩
  have h := restoration_applied_exactly_once admitRequest_sample rfl Nat.one_pos
    onlyAddsFiles_sample hpasses hfinish
  exact h.1

end Sample

end YawnApp.SessionCore
