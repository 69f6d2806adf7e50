/-
  SessionCore/NoteRecovery.lean --- a note generation survives crashes.

  An admitted generation whose request is stored goes through the phases of
  `OperationPhases`, whoever carries it on and wherever it is stopped.  A result
  that leaves the record as it stands (a rejection that changes nothing, a note
  like the one before) goes from its storing to its commit in one step; every
  other result is published in between.  The theorem at the end: the operation
  ends committed, its receipts belong together, and of the record only the
  lifecycle and the current note changed, to what the receipts prescribe.
-/
import YawnApp.SessionCore.NotePhases
import YawnApp.SessionCore.RestorationRecovery

set_option autoImplicit false

namespace YawnApp.SessionCore

open YawnApp.Foundation Durable

variable {B : Type} [Platform B] [DecidableEq B]

namespace NoteRegeneration

open NoteGenerationCoordinator

/-! ## The programs, phase by phase -/

variable {c : NoteRegeneration B} {lib : Library B} {result : NoteGenerationResult}
  {rt : NoteGenerationRuntime B} {phase : OperationPhase NoteGenerationResult}

/-- A record that stands where its result puts it lacks only the commit. -/
theorem classify_applied (h : c.Admitted) (hlib : c.Holds phase lib)
    (hphase : phase.result? = some result)
    (happlied : c.record phase = publishedMeeting c.request c.meeting result) :
    classify c.request (some result) (c.record phase) c.sourceRef = .ok .writeMissingCommit := by
  rw [happlied]
  exact classify_published h (hlib.result result hphase)

theorem prepareCommit_of_applied (h : c.Admitted) (hinspect : rt.inspect = c.inspect)
    (hlib : c.Holds phase lib) (hphase : phase.result? = some result)
    (happlied : c.record phase = publishedMeeting c.request c.meeting result)
    (committedAt : UInt64) :
    prepareCommit rt (lib.reader c.request.meetingId) committedAt c.request result =
      .ok (c.commitOf committedAt result, publishedMeeting c.request c.meeting result,
        toVecPretty (publishedMeeting c.request c.meeting result)) := by
  have hresult := hlib.result result hphase
  have hread : readBounded (lib.reader c.request.meetingId) "meeting.json" maxMeetingRecordBytes =
      .ok (toVecPretty (c.record phase) : B) := by
    unfold readBounded Library.reader
    rw [Files.reader_eq_ok.mpr hlib.record, ok_bind,
      refuseIf_of_not (Nat.not_lt.mpr (MeetingRecord.fits (hlib.valid h)))]
    rfl
  have hstored : inspectStoredResult rt (lib.reader c.request.meetingId) c.request result = .ok () :=
    InspectedNote.inspectStoredResult (hinspect ▸ hresult)
  unfold prepareCommit
  rw [hlib.resumable h, ok_bind]
  simp only
  rw [classify_applied h hlib hphase happlied, ok_bind, refuseIf_of_not (by simp), ok_bind, hstored,
    ok_bind, hread, mapError_ok, ok_bind, refuseIf_of_not (by simp), ok_bind, happlied]
  rfl

/-- A result that is applied is committed in one step. -/
theorem writeTerminalCommit_of_applied (h : c.Admitted) (hinspect : rt.inspect = c.inspect)
    (hlib : c.Holds phase lib) (hphase : phase.result? = some result)
    (hpending : phase.isCommitted = false)
    (happlied : c.record phase = publishedMeeting c.request c.meeting result) :
    ∃ commit next, (writeTerminalCommit rt c.request result).exec lib = ⟨[next], .ok ()⟩ ∧
      c.Holds (.committed result commit) next := by
  have hresult := hlib.result result hphase
  have htime := nowEpochSeconds_ne_zero (rt.commitClock c.request.operationId)
  have hreceipt : lib.operations.lookup c.request.operationId = some
      { request := .noteGeneration c.request, result := some (.noteGeneration result),
        commit := none } := by
    apply hlib.stored.receipt.trans
    cases phase with
    | requested => cases hphase
    | resulted | published => cases hphase; rfl
    | committed => cases hpending
  have hwrite := Receipts.writeCommit_of_resulted (B := B) (commitOf_valid h.request hresult htime)
    hreceipt commitOf_matches (commitOf_meeting h hresult htime)
  refine ⟨c.commitOf (nowEpochSeconds (rt.commitClock c.request.operationId)) result,
    { lib with operations := (lib.operations.insert c.request.operationId
        (OperationPhase.receipt (.noteGeneration c.request) .noteGeneration
          (.committed result _))) },
    ?_, hlib.stored.insert _, hlib.artifacts, hlib.record.trans (by rw [happlied]; rfl), ?_, ?_⟩
  · unfold writeTerminalCommit
    rw [bind_inspect_of_ok _
      (by exact prepareCommit_of_applied h hinspect hlib hphase happlied _)]
    exact mapError_of_eq_ok (Library.updateOperations_of_ok hwrite)
  · rintro _ ⟨⟩
    exact hresult
  · rintro _ _ ⟨⟩
    exact ⟨commitOf_valid h.request hresult htime, commitOf_receipts h hresult htime⟩

/-- A stored result is applied and committed. -/
theorem applyResult_of_resulted (h : c.Admitted) (hinspect : rt.inspect = c.inspect)
    (hlib : c.Holds (.resulted result) lib) :
    ∃ commit trace, (applyResult rt c.request result).exec lib = ⟨trace, .ok ()⟩ ∧
      Follows c.Holds OperationPhase.Next (.resulted result) trace (.committed result commit) := by
  have hresult := hlib.result result rfl
  have hstored : inspectStoredResult rt (lib.reader c.request.meetingId) c.request result = .ok () :=
    InspectedNote.inspectStoredResult (hinspect ▸ hresult)
  have hvalid := h.published_valid hresult
  by_cases happlied : publishedMeeting c.request c.meeting result = c.meeting
  -- nothing to write: the commit comes next
  · have hprepare : prepareApply rt (lib.reader c.request.meetingId) c.request result = .ok none := by
      unfold prepareApply
      rw [hlib.resumable h, ok_bind]
      simp only [record]
      rw [classify_resulted h hresult, if_pos happlied]
      rfl
    obtain ⟨commit, next, hcommit, hnext⟩ := writeTerminalCommit_of_applied h hinspect hlib rfl rfl
      happlied.symm
    refine ⟨commit, [next], ?_, .single (.commitUnchanged result commit) hnext⟩
    unfold applyResult
    rw [bind_inspect_of_ok _ (by exact hprepare)]
    exact hcommit
  · have hprepare : prepareApply rt (lib.reader c.request.meetingId) c.request result =
        .ok (some (publishedMeeting c.request c.meeting result)) := by
      unfold prepareApply
      rw [hlib.resumable h, ok_bind]
      simp only [record]
      rw [classify_resulted h hresult, if_neg happlied, ok_bind]
      simp only
      rw [hstored]
      rfl
    set first := lib.setMeeting c.request.meetingId ((lib.meetings c.request.meetingId).put
      "meeting.json" (toVecPretty (publishedMeeting c.request c.meeting result))) with hfirst
    have hkeeps : (lib.meetings c.request.meetingId).KeepsArtifacts
        (first.meetings c.request.meetingId) := by
      rw [hfirst, Library.setMeeting_meetings_self]
      exact Files.keepsArtifacts_put _ _
    have hpublished : c.Holds (.published result) first := by
      refine ⟨⟨hlib.stored.receipt, hlib.stored.sole⟩, hlib.artifacts.trans hkeeps, ?_, ?_, ?_⟩
      · rw [hfirst, Library.setMeeting_meetings_self, Files.put_self]
        rfl
      · rintro _ ⟨⟩
        exact hresult.mono h.reads hkeeps
      · rintro _ _ ⟨⟩
    obtain ⟨commit, next, hcommit, hnext⟩ :=
      writeTerminalCommit_of_applied h hinspect hpublished rfl rfl rfl
    refine ⟨commit, [first, next], ?_,
      .cons (.publish result) hpublished (.single (.commit result commit) hnext)⟩
    unfold applyResult
    rw [bind_inspect_of_ok _ (by exact hprepare)]
    simp only
    rw [bind_of_eq_ok_singleton _
      (mapError_of_eq_ok (Library.writeMeeting_of_valid hvalid lib)), ← hfirst, hcommit]

/-- Files that are added keep an operation requested. -/
theorem Holds.added {files : Files B} (hlib : c.Holds .requested lib)
    (hfiles : (lib.meetings c.request.meetingId).Extends files) :
    c.Holds .requested (lib.setMeeting c.request.meetingId files) := by
  refine ⟨⟨hlib.stored.receipt, hlib.stored.sole⟩, ?_, ?_, ?_, ?_⟩
  · rw [Library.setMeeting_meetings_self]
    exact hlib.artifacts.trans hfiles.keepsArtifacts
  · rw [Library.setMeeting_meetings_self]
    exact hfiles _ _ hlib.record
  · rintro _ ⟨⟩
  · rintro _ _ ⟨⟩

end NoteRegeneration

/-- The worker of a call only adds files. -/
def NoteGenerationRuntime.OnlyAddsFiles (rt : NoteGenerationRuntime B) : Prop :=
  ∀ arguments files, ∀ t ∈ ((rt.worker arguments).exec files).trace, files.Extends t

/-- Asked for a request with these files, the worker accepts or rejects, and the
answer passes the checks. -/
def NoteGenerationRuntime.AnswersValidly (rt : NoteGenerationRuntime B)
    (request : NoteGenerationRequest) (files : Files B) : Prop :=
  let answer := (rt.worker (NoteGenerationCoordinator.workerArguments request)).exec files
  ∃ outcome result, answer.result = .ok outcome ∧
    NoteGenerationCoordinator.inspectWorkerResult rt (answer.final files).reader request outcome =
      .ok result

namespace NoteRegeneration

open NoteGenerationCoordinator

variable {c : NoteRegeneration B} {lib : Library B} {result : NoteGenerationResult}
  {rt : NoteGenerationRuntime B} {phase : OperationPhase NoteGenerationResult}
  {request : NoteGenerationRequest} {meeting : MeetingRecord} {arguments : RegenerateNoteUiArgs}

/-- A request whose worker answers validly is carried through; otherwise it
stays requested. -/
theorem executeRequest_of_requested (h : c.Admitted) (hinspect : rt.inspect = c.inspect)
    (hadds : rt.OnlyAddsFiles) (hlib : c.Holds .requested lib) :
    ∃ q, Follows c.Holds OperationPhase.Next .requested
        ((executeRequest rt c.request).exec lib).trace q ∧
      (rt.AnswersValidly c.request (lib.meetings c.request.meetingId) → q.isCommitted = true) := by
  have hprepare : prepareExecute (lib.reader c.request.meetingId) c.request =
      .ok (workerArguments c.request) := by
    unfold prepareExecute
    rw [hlib.load h, ok_bind]
    simp only [record]
    rw [h.source]
    rfl
  set files := lib.meetings c.request.meetingId with hfiles
  set answer := (rt.worker (workerArguments c.request)).exec files with hanswer
  set added := lib.setMeeting c.request.meetingId (answer.final files) with hset
  -- while the worker is at work, and after it, the operation is requested
  have htrace : ∀ t ∈ answer.trace.map (lib.setMeeting c.request.meetingId), c.Holds .requested t := by
    intro t ht
    obtain ⟨new, hnew, rfl⟩ := List.mem_map.mp ht
    exact hlib.added (hadds _ _ _ hnew)
  have hadded : c.Holds .requested added := by
    rcases answer.final_eq_or_mem files with hsame | hmem
    · rw [hset, hsame, hfiles, Library.setMeeting_self]
      exact hlib
    · exact hlib.added (hadds _ _ _ hmem)
  have hfollows := Follows.stay (OperationPhase.Next.stay _) htrace
  unfold executeRequest
  rw [bind_inspect_of_ok _ (by exact hprepare)]
  cases hresult : answer.result with
  | error =>
    rw [Library.inMeeting_bind_of_error _ (by exact hresult)]
    refine ⟨.requested, hfollows, fun hvalid => ?_⟩
    obtain ⟨outcome, -, hok, -⟩ := hvalid
    exact absurd (hresult.symm.trans hok) (by simp)
  | ok outcome =>
    rw [Library.inMeeting_bind_of_ok _ hset (by exact hresult)]
    cases houtcome : inspectWorkerResult rt (added.reader c.request.meetingId) c.request outcome with
    | error =>
      rw [bind_inspect_of_error _ (by exact houtcome)]
      refine ⟨.requested, by rw [List.append_nil]; exact hfollows, fun hvalid => ?_⟩
      obtain ⟨outcome', result, hok, haccepted⟩ := hvalid
      rw [← hanswer, hresult, Except.ok.injEq] at hok
      subst hok
      rw [hset, Library.reader, Library.setMeeting_meetings_self, haccepted] at houtcome
      cases houtcome
    | ok result =>
      have hsound : InspectedNote c.inspect (added.reader c.request.meetingId) c.request result :=
        hinspect ▸ inspectedNote_of_worker houtcome
      have hvalid : (StoredOperationResult.noteGeneration result).validate = .ok () := by
        simp [StoredOperationResult.validate, hsound.validResult]
      have hfits : ByteString.size ((StoredOperationResult.noteGeneration result).canonicalBytes : B) ≤
          maxReceiptBytes :=
        (size_toVecPretty result).trans_le
          ((NoteGenerationResult.prettySize_le hsound.validResult).trans (by decide))
      have hwrite : Receipts.writeResult B c.request.operationId (.noteGeneration result)
          added.operations = .ok (added.operations.insert c.request.operationId
            { request := .noteGeneration c.request, result := some (.noteGeneration result),
              commit := none }) := Receipts.writeResult_of_requested hvalid hfits
                hadded.stored.receipt hsound.matchesRequest
      set operations := added.operations.insert c.request.operationId
        { request := .noteGeneration c.request, result := some (.noteGeneration result),
          commit := none }
      have hresulted : c.Holds (.resulted result) { added with operations } :=
        ⟨hadded.stored.insert (.resulted result), hadded.artifacts, hadded.record,
          by rintro _ ⟨⟩; exact hsound, by rintro _ _ ⟨⟩⟩
      obtain ⟨commit, trace, happly, hrest⟩ := applyResult_of_resulted h hinspect hresulted
      rw [bind_inspect_of_ok _ (by exact houtcome), bind_of_eq_ok_singleton _
        (mapError_of_eq_ok (Library.updateOperations_of_ok hwrite)), happly]
      exact ⟨.committed result commit, hfollows.append (.cons (.result result) hresulted hrest),
        fun _ => rfl⟩

/-- What a recovery makes of the receipts of a pending operation. -/
theorem resumeRequest_of_pending (h : c.Admitted) (hinspect : rt.inspect = c.inspect)
    (hadds : rt.OnlyAddsFiles) (hlib : c.Holds phase lib) (hpending : phase.isCommitted = false) :
    let stored := (phase.receipt (.noteGeneration c.request) .noteGeneration).result
    ∃ q, Follows c.Holds OperationPhase.Next phase
        ((resumeRequest rt c.request stored).exec lib).trace q ∧
      (rt.AnswersValidly c.request (lib.meetings c.request.meetingId) → q.isCommitted = true) := by
  have hstored : ∀ {result}, phase.result? = some result →
      inspectStoredResult rt (lib.reader c.request.meetingId) c.request result = .ok () :=
    fun hphase => InspectedNote.inspectStoredResult (hinspect ▸ hlib.result _ hphase)
  cases phase with
  | committed => simp [OperationPhase.isCommitted] at hpending
  | requested =>
    have hprepare : prepareRetry (lib.reader c.request.meetingId) c.request = .ok () := by
      unfold prepareRetry
      rw [hlib.resumable h, ok_bind]
      simp only [record]
      rw [classify_requested h]
      rfl
    obtain ⟨q, hfollows, hvalid⟩ := executeRequest_of_requested h hinspect hadds hlib
    refine ⟨q, ?_, hvalid⟩
    change Follows _ _ _ ((resumeRequest rt c.request none).exec lib).trace q
    unfold resumeRequest
    rw [bind_inspect_of_ok _ (by exact hprepare), (bind_pure_apply _ _ _).1]
    exact hfollows
  | resulted result =>
    have hprepare : prepareResume rt (lib.reader c.request.meetingId) c.request result =
        .ok (if publishedMeeting c.request c.meeting result = c.meeting then .writeMissingCommit
          else .applyValidatedResult) := by
      unfold prepareResume
      rw [hlib.resumable h, ok_bind]
      simp only [record]
      rw [hstored rfl, ok_bind]
      exact classify_resulted h (hlib.result result rfl)
    change ∃ q, Follows _ _ _
      ((resumeRequest rt c.request (some (.noteGeneration result))).exec lib).trace q ∧ _
    unfold resumeRequest
    rw [bind_inspect_of_ok _ (by exact hprepare)]
    by_cases happlied : publishedMeeting c.request c.meeting result = c.meeting
    · obtain ⟨commit, next, hcommit, hnext⟩ :=
        writeTerminalCommit_of_applied h hinspect hlib rfl rfl happlied.symm
      rw [if_pos happlied, (bind_pure_apply _ _ _).1, hcommit]
      exact ⟨_, .single (.commitUnchanged result commit) hnext, fun _ => rfl⟩
    · obtain ⟨commit, trace, happly, hrest⟩ := applyResult_of_resulted h hinspect hlib
      rw [if_neg happlied, (bind_pure_apply _ _ _).1, happly]
      exact ⟨_, hrest, fun _ => rfl⟩
  | published result =>
    have hprepare : prepareResume rt (lib.reader c.request.meetingId) c.request result =
        .ok .writeMissingCommit := by
      unfold prepareResume
      rw [hlib.resumable h, ok_bind]
      simp only [record]
      rw [hstored rfl, ok_bind]
      exact classify_published h (hlib.result result rfl)
    obtain ⟨commit, next, hcommit, hnext⟩ :=
      writeTerminalCommit_of_applied h hinspect hlib rfl rfl rfl
    refine ⟨.committed result commit, ?_, fun _ => rfl⟩
    change Follows _ _ _
      ((resumeRequest rt c.request (some (.noteGeneration result))).exec lib).trace _
    unfold resumeRequest
    rw [bind_inspect_of_ok _ (by exact hprepare), (bind_pure_apply _ _ _).1, hcommit]
    exact .single (.commit result commit) hnext

/-- A round that finds one pending generation resumes it. -/
theorem recoverMeeting_of_pending {meetingId id : Uuid} {receipt : StoredOperationReceipt}
    (hfree : rt.held meetingId = false)
    (hlist : nonterminalForMeeting lib.operations meetingId = [(id, receipt)])
    (hrequest : receipt.request = .noteGeneration request) :
    ((recoverMeeting rt meetingId).exec lib).trace =
      ((resumeRequest rt request receipt.result).exec lib).trace := by
  unfold recoverMeeting acquire
  rw [refuseIf_of_not (by simp [hfree])]
  simp only
  rw [bind_look, hlist]
  simp only [hrequest]
  rw [bind_of_ok _ (show ((Durable.attempt (resumeRequest rt request receipt.result)).exec
    lib).result = .ok _ from rfl)]
  cases ((resumeRequest rt request receipt.result).exec lib).result <;> exact List.append_nil _

/-- One round of the recovery loop, on the meeting of the operation or another. -/
theorem recoverMeeting_follows (h : c.Admitted) (hinspect : rt.inspect = c.inspect)
    (hadds : rt.OnlyAddsFiles) (hlib : c.Holds phase lib) (meetingId : Uuid) :
    ∃ q, Follows c.Holds OperationPhase.Next phase ((recoverMeeting rt meetingId).exec lib).trace q ∧
      (meetingId = c.request.meetingId → rt.held meetingId = false →
        rt.AnswersValidly c.request (lib.meetings c.request.meetingId) → q.isCommitted = true) := by
  by_cases hmeeting : meetingId = c.request.meetingId
  · subst hmeeting
    cases hheld : rt.held c.request.meetingId with
    | true =>
      refine ⟨phase, ?_, fun _ hfree => by cases hfree⟩
      simp only [recoverMeeting, acquire, hheld, refuseIf_of]
      exact .nil phase
    | false =>
      cases hcommitted : phase.isCommitted with
      | true =>
        refine ⟨phase, ?_, fun _ _ _ => hcommitted⟩
        have hnil : nonterminalForMeeting lib.operations c.request.meetingId = [] :=
          hlib.stored.nonterminal_eq_nil hcommitted
        simp only [recoverMeeting, acquire, hheld]
        rw [refuseIf_of_not (by simp)]
        simp only
        rw [bind_look, hnil]
        exact .nil phase
      | false =>
        have hsingle := hlib.stored.nonterminal_eq hcommitted
        obtain ⟨q, hfollows, hvalid⟩ := resumeRequest_of_pending h hinspect hadds hlib hcommitted
        refine ⟨q, ?_, fun _ _ hanswer => hvalid hanswer⟩
        rw [recoverMeeting_of_pending hheld hsingle (OperationPhase.receipt_request _ _ phase)]
        exact hfollows
  · refine ⟨phase, Follows.stay (.stay phase) fun t ht => ?_, fun hsame => absurd hsame hmeeting⟩
    exact hlib.of_leavesAlone (moves_recoverMeeting (Library.leavesAlone_frame hmeeting) lib t ht)

/-- A round of the loop reports, whatever it finds. -/
theorem recoverMeeting_answers (rt : NoteGenerationRuntime B) (meetingId : Uuid) :
    Answers (recoverMeeting rt meetingId) := by
  unfold recoverMeeting
  split
  · exact Answers.pure _
  · apply Answers.bind (Answers.look _)
    intro pending
    split
    · split
      · exact Answers.pure _
      · apply Answers.bind (Answers.attempt _)
        intro outcome
        cases outcome <;> exact Answers.pure _
    · exact Answers.pure _

theorem mem_noteMeetings {operations : Receipts} {id : Uuid} {r : StoredOperationReceipt}
    (hr : operations.lookup id = some r) (hpending : r.nonterminal = true)
    (hrequest : r.request = .noteGeneration request) :
    request.meetingId ∈ noteMeetings operations := by
  unfold noteMeetings
  rw [List.mem_insertionSort, List.mem_dedup, List.mem_filterMap]
  refine ⟨⟨id, r⟩, AList.mem_lookup_iff.mp hr, ?_⟩
  simp only [hpending, hrequest]

/-- A pass of the recovery follows the phases. -/
theorem recoverIncomplete_follows (h : c.Admitted) (hinspect : rt.inspect = c.inspect)
    (hadds : rt.OnlyAddsFiles) (hlib : c.Holds phase lib) :
    ∃ q, Follows c.Holds OperationPhase.Next phase ((recoverIncomplete rt).exec lib).trace q := by
  unfold recoverIncomplete
  rw [bind_look]
  refine follows_forEach (recoverMeeting_answers rt) (fun meetingId p s hs => ?_) _ phase lib hlib
  obtain ⟨q, hq, -⟩ := recoverMeeting_follows h hinspect hadds hs meetingId
  exact ⟨q, hq⟩

/-- If the meeting is free and the worker answers validly, the pass commits. -/
theorem recoverIncomplete_commits (h : c.Admitted) (hinspect : rt.inspect = c.inspect)
    (hadds : rt.OnlyAddsFiles) (hlib : c.Holds phase lib)
    (hfree : rt.held c.request.meetingId = false)
    (hanswers : rt.AnswersValidly c.request (lib.meetings c.request.meetingId)) :
    ∃ q, Follows c.Holds OperationPhase.Next phase ((recoverIncomplete rt).exec lib).trace q ∧
      q.isCommitted = true := by
  cases hcommitted : phase.isCommitted with
  | true =>
    obtain ⟨q, hq⟩ := recoverIncomplete_follows h hinspect hadds hlib
    exact ⟨q, hq, OperationPhase.isCommitted_of_reaches hq.reaches hcommitted⟩
  | false =>
    have hmem : c.request.meetingId ∈ noteMeetings lib.operations := by
      refine mem_noteMeetings hlib.stored.receipt ?_ (OperationPhase.receipt_request _ _ phase)
      rw [OperationPhase.nonterminal_receipt, hcommitted]
      rfl
    unfold recoverIncomplete
    rw [bind_look]
    refine follows_forEach_to (P := fun q => q.isCommitted = true)
      (R := fun s => s.meetings c.request.meetingId = lib.meetings c.request.meetingId)
      (fun _ _ => OperationPhase.Next.isCommitted) (recoverMeeting_answers rt)
      (fun meetingId p s hs => ?_) (fun p s hs hsame => ?_) (fun meetingId hother s hsame => ?_)
      hmem phase lib hlib rfl
    · obtain ⟨q, hq, -⟩ := recoverMeeting_follows h hinspect hadds hs meetingId
      exact ⟨q, hq⟩
    · obtain ⟨q, hq, hfinish⟩ :=
        recoverMeeting_follows h hinspect hadds hs c.request.meetingId
      exact ⟨q, hq, hfinish rfl hfree (hsame ▸ hanswers)⟩
    · have hframe := Library.leavesAlone_frame (B := B) hother
      have hround : Moves _ (recoverMeeting rt meetingId) := moves_recoverMeeting hframe
      exact (hround.final hframe.refl s).1.trans hsame

/-! ## The call that stores the request -/

omit [DecidableEq B] in
theorem admitted_of_admitRequest {sourceAdmission}
    (h : admitRequest rt sourceAdmission arguments lib = .ok request)
    (hrecord : lib.meetings request.meetingId "meeting.json" = some (toVecPretty meeting))
    (hreads : InspectsFreshly rt.inspect) :
    Admitted ⟨request, meeting, lib.meetings request.meetingId, rt.inspect⟩ := by
  unfold admitRequest at h
  simp only [bind_eq_ok, mapError_eq_ok] at h
  obtain ⟨_, -, _, -, _, -, found, hload, _, hsource, _, -, _, hvalid, heq⟩ := h
  cases heq
  unfold loadAndVerifyMeeting at hload
  simp only [bind_eq_ok, mapError_eq_ok] at hload
  obtain ⟨_, hfound, _, hartifacts, heq⟩ := hload
  cases heq
  -- the record that is read is the one that was written
  have hsame : meeting = found := by
    have h := hfound
    unfold loadMeeting readBounded Library.reader at h
    simp only [bind_eq_ok, Files.reader_eq_ok, orRefuse_eq_ok] at h
    obtain ⟨bytes, ⟨_, hbytes, _, -, heq⟩, parsed, hparsed, _, -, heq'⟩ := h
    cases heq
    cases heq'
    rw [hrecord, Option.some.injEq] at hbytes
    rw [← hbytes, fromSlice_toVecPretty, Option.some.injEq] at hparsed
    exact hparsed
  subst hsame
  exact ⟨hvalid, hrecord, loadMeeting_eq_ok hfound, hartifacts, hsource, rfl, hreads⟩

/-- The call that is admitted stores its request and executes it. -/
theorem regenerateNote_follows {sourceAdmission}
    (hallowed : admitRequest rt sourceAdmission arguments lib = .ok request)
    (hrecord : lib.meetings request.meetingId "meeting.json" = some (toVecPretty meeting))
    (hreads : InspectsFreshly rt.inspect)
    (hfresh : lib.operations.lookup request.operationId = none) (hadds : rt.OnlyAddsFiles) :
    let c : NoteRegeneration B := ⟨request, meeting, lib.meetings request.meetingId, rt.inspect⟩
    ∃ stored rest q,
      ((regenerateNoteWith rt sourceAdmission arguments).exec lib).trace = stored :: rest ∧
      c.Admitted ∧ c.Holds .requested stored ∧ stored.meetings = lib.meetings ∧
      Follows c.Holds OperationPhase.Next .requested rest q ∧
      (rt.AnswersValidly request (lib.meetings request.meetingId) → q.isCommitted = true) := by
  have hadmitted := admitted_of_admitRequest hallowed hrecord hreads
  have hvalid : (StoredOperationRequest.noteGeneration request).validate = .ok () := by
    simp [StoredOperationRequest.validate, hadmitted.request]
  have hwrite : Receipts.writeRequest B (.noteGeneration request) lib.operations =
      .ok (lib.operations.insert request.operationId
        { request := .noteGeneration request, result := none, commit := none }) :=
    Receipts.writeRequest_of_fresh hvalid hfresh
  set stored : Library B := { lib with
    operations := (lib.operations.insert request.operationId
      { request := .noteGeneration request, result := none, commit := none }) } with hstored
  have hnone := nothing_pending_of_admitted hallowed
  have hholds : Holds ⟨request, meeting, lib.meetings request.meetingId, rt.inspect⟩ .requested
      stored := by
    refine ⟨⟨AList.lookup_insert _, ?_⟩, Files.KeepsArtifacts.refl _, hrecord, ?_, ?_⟩
    · refine Receipts.Sole.insert (fun other r hr hpending hmeeting => ?_) _
      have hmem := mem_nonterminalForMeeting.mpr ⟨hr, hpending, hmeeting⟩
      rw [hnone] at hmem
      cases hmem
    · rintro _ ⟨⟩
    · rintro _ _ ⟨⟩
  obtain ⟨q, hfollows, hfinish⟩ := executeRequest_of_requested hadmitted rfl hadds hholds
  refine ⟨stored, _, q, ?_, hadmitted, hholds, rfl, hfollows, hfinish⟩
  unfold regenerateNoteWith
  rw [bind_inspect_of_ok _ hallowed, bind_of_eq_ok_singleton _
    (mapError_of_eq_ok (Library.updateOperations_of_ok hwrite)), ← hstored]
  rw [(bind_pure_apply _ _ _).1]

/-! ## The whole run -/

/-- A pass that is not interrupted, finds the meeting free and has a worker
whose answer, accepted or rejected, passes the checks. -/
structure FinishingPass (request : NoteGenerationRequest) (lib : Library B)
    (pass : NoteGenerationRuntime B × Nat) : Prop where
  uninterrupted : ((recoverIncomplete pass.1).exec lib).trace.length ≤ pass.2
  free : pass.1.held request.meetingId = false
  answers : pass.1.AnswersValidly request (lib.meetings request.meetingId)

/-- A pass that nothing interrupts. -/
def wholePass (rt : NoteGenerationRuntime B) (lib : Library B) : NoteGenerationRuntime B × Nat :=
  (rt, ((recoverIncomplete rt).exec lib).trace.length)

theorem finishingPass_of_answers (hfree : rt.held request.meetingId = false)
    (hanswers : rt.AnswersValidly request (lib.meetings request.meetingId)) :
    FinishingPass request lib (wholePass rt lib) := ⟨Nat.le_refl _, hfree, hanswers⟩

/-- Passes of the recovery, as calls. -/
def passes (attempts : List (NoteGenerationRuntime B × Nat)) : List (ProductCall B × Nat) :=
  attempts.map fun pass => (.recoverNotes pass.1, pass.2)

/-- The run finishes the operation: the call is not interrupted and its worker
answers validly, or one of the passes is a finishing one. -/
def FinishingRun (rt : NoteGenerationRuntime B)
    (sourceAdmission : Reader B → Except NoteGenerationCoordinatorError Unit)
    (arguments : RegenerateNoteUiArgs) (request : NoteGenerationRequest) (lib : Library B)
    (steps : Nat) (attempts : List (NoteGenerationRuntime B × Nat)) : Prop :=
  (((regenerateNoteWith rt sourceAdmission arguments).exec lib).trace.length ≤ steps ∧
      rt.AnswersValidly request (lib.meetings request.meetingId)) ∨
    ∃ before last after, attempts = before ++ last :: after ∧
      FinishingPass request (run ProductCall.states lib
        ((.regenerateNote rt sourceAdmission arguments, steps) :: passes before)) last

/-- What the library holds of a generation that ended, which found `meeting`. -/
def Ended (request : NoteGenerationRequest) (meeting : MeetingRecord) (lib : Library B) : Prop :=
  ∃ result commit final bytes,
    lib.operations.lookup request.operationId =
      some ⟨.noteGeneration request, some (.noteGeneration result), some commit⟩ ∧
    lib.meetings request.meetingId "meeting.json" = some bytes ∧
    loadMeeting (lib.reader request.meetingId) request.meetingId.text = .ok final ∧
    commit.validate = .ok () ∧ validateNoteReceipts request result commit final bytes = .ok () ∧
    (result.status = .accepted →
      final.artifacts.currentNote = result.note ∧ final.lifecycle = .ready) ∧
    (result.status = .rejected →
      final.artifacts.currentNote = meeting.artifacts.currentNote ∧
      final.lifecycle = if meeting.artifacts.currentNote.isSome then .ready else .summaryFailed) ∧
    final = { meeting with
      lifecycle := final.lifecycle
      artifacts := { meeting.artifacts with currentNote := final.artifacts.currentNote } }

/-- A committed generation has ended as it should. -/
theorem Holds.ended {commit : MeetingOperationCommit}
    (hlib : c.Holds (.committed result commit) lib) (h : c.Admitted) :
    Ended c.request c.meeting lib := by
  have hload : loadMeeting (lib.reader c.request.meetingId) c.request.meetingId.text =
      .ok (publishedMeeting c.request c.meeting result) :=
    loadMeeting_of_written (hlib.valid h) hlib.record
  obtain ⟨hcommit, hreceipts⟩ := hlib.commit result commit rfl
  refine ⟨result, commit, _, _, hlib.stored.receipt, hlib.record, hload, hcommit, hreceipts,
    fun hstatus => ?_, fun hstatus => ?_, ?_⟩
  · rw [publishedMeeting_eq]
    simp only [publishedNote, publishedLifecycle, hstatus]
    exact ⟨trivial, trivial⟩
  · rw [publishedMeeting_eq, ← h.priorNote]
    simp only [publishedNote, publishedLifecycle, hstatus]
    cases c.request.priorNote <;> simp
  · rw [publishedMeeting_eq]

theorem follows_pass (h : c.Admitted) {attempts : List (NoteGenerationRuntime B × Nat)}
    (hpasses : ∀ pass ∈ attempts, pass.1.OnlyAddsFiles ∧ pass.1.inspect = c.inspect) :
    ∀ attempt ∈ passes attempts, ∀ p s, c.Holds p s →
      ∃ q, Follows c.Holds OperationPhase.Next p (ProductCall.states attempt.1 s) q := by
  intro attempt hattempt p s hs
  obtain ⟨pass, hpass, rfl⟩ := List.mem_map.mp hattempt
  exact recoverIncomplete_follows h (hpasses pass hpass).2 (hpasses pass hpass).1 hs

/-- A call that stops right after its first step has changed no meeting. -/
theorem meetings_of_stored {sourceAdmission}
    (hallowed : admitRequest rt sourceAdmission arguments lib = .ok request)
    (hrecord : lib.meetings request.meetingId "meeting.json" = some (toVecPretty meeting))
    (hreads : InspectsFreshly rt.inspect)
    (hfresh : lib.operations.lookup request.operationId = none) (hadds : rt.OnlyAddsFiles) :
    (run ProductCall.states lib [(.regenerateNote rt sourceAdmission arguments, 1)]).meetings =
      lib.meetings := by
  obtain ⟨stored, rest, q, htrace, -, -, hmeetings, -⟩ :=
    regenerateNote_follows hallowed hrecord hreads hfresh hadds
  have hstates : ProductCall.states (.regenerateNote rt sourceAdmission arguments) lib =
      stored :: rest := htrace
  rw [run_cons, run_nil, cut, hstates]
  exact hmeetings

end NoteRegeneration

open NoteGenerationCoordinator NoteRegeneration in
/-- A note generation that was admitted, on a record as the app writes it, ends
committed.  The call that stored the request may stop after any of its steps,
and so may any pass of the recovery; their workers only add files and their
notes are read by one inspector.  If the call or some pass is not interrupted
and has a worker whose answer passes the checks, accepted or rejected, then the
commit and the receipts are coherent and the record is the one the request found
but for its lifecycle and its note, which are those the result prescribes. -/
theorem note_generation_recovered {rt : NoteGenerationRuntime B}
    {sourceAdmission : Reader B → Except NoteGenerationCoordinatorError Unit}
    {arguments : RegenerateNoteUiArgs} {lib : Library B} {request : NoteGenerationRequest}
    {meeting : MeetingRecord}
    (hallowed : admitRequest rt sourceAdmission arguments lib = .ok request)
    (hrecord : lib.meetings request.meetingId "meeting.json" = some (toVecPretty meeting))
    (hfresh : lib.operations.lookup request.operationId = none) {steps : Nat} (hsteps : 0 < steps)
    {attempts : List (NoteGenerationRuntime B × Nat)} (hadds : rt.OnlyAddsFiles)
    (hreads : InspectsFreshly rt.inspect)
    (hpasses : ∀ pass ∈ attempts, pass.1.OnlyAddsFiles ∧ pass.1.inspect = rt.inspect)
    (hfinish : FinishingRun rt sourceAdmission arguments request lib steps attempts) :
    Ended request meeting (run ProductCall.states lib
      ((.regenerateNote rt sourceAdmission arguments, steps) :: passes attempts)) := by
  obtain ⟨stored, rest, q, htrace, hadmitted, hstored, -, hfollows, hdone⟩ :=
    regenerateNote_follows hallowed hrecord hreads hfresh hadds
  set c : NoteRegeneration B := ⟨request, meeting, lib.meetings request.meetingId, rt.inspect⟩
  have hstates : ProductCall.states (.regenerateNote rt sourceAdmission arguments) lib =
      stored :: rest := htrace
  obtain ⟨r, -, -, -, hr, hcommitted⟩ := follows_started ProductCall.states
    (P := fun q => q.isCommitted = true) (fun _ _ => OperationPhase.Next.isCommitted) hstates hstored
    hfollows hsteps (follows_pass hadmitted hpasses) <| by
      rcases hfinish with ⟨hwhole, hanswer⟩ | ⟨before, last, after, rfl, hlast⟩
      · exact .inl ⟨hwhole, hdone hanswer⟩
      · obtain ⟨hadds, hinspect⟩ := hpasses last (List.mem_append_right _ List.mem_cons_self)
        exact .inr ⟨passes before, (.recoverNotes last.1, last.2), passes after, by simp [passes],
          hlast.uninterrupted, fun q hq =>
            recoverIncomplete_commits hadmitted hinspect hadds hq hlast.free hlast.answers⟩
  cases r with
  | requested | resulted | published => cases hcommitted
  | committed result commit => exact hr.ended hadmitted

/-! ## A generation in a concrete library -/

/-- A note whose two files are empty. -/
def sampleNoteDigests : Digests := List.toFinmap
  [⟨"note", emptySha256⟩, ⟨"note-markdown", emptySha256⟩, ⟨"transcript", sampleBaseSha256⟩]

/-- An inspector that reads the two files of a note by the digests in their
names. -/
def sampleInspect (read : Reader SampleBytes) (_ : Uuid) (note : NoteRevisionRef) :
    Except NoteArtifactError Digests := do
  (verifyArtifactRef read ⟨"notes" ++ "/" ++ note.json.sha256 ++ "." ++ "json",
    note.json.sha256⟩).mapError fun _ => .changed
  (verifyArtifactRef read ⟨"notes" ++ "/" ++ note.markdown.sha256 ++ "." ++ "md",
    note.markdown.sha256⟩).mapError fun _ => .changed
  return List.toFinmap [⟨"note", note.json.sha256⟩, ⟨"note-markdown", note.markdown.sha256⟩,
    ⟨"transcript", note.sourceTranscriptSha256⟩]

/-- A worker that puts both files in their places, unless there are files
already, and reports them. -/
def sampleNoteWorker : Durable (Files SampleBytes) NoteGenerationWorkerError NoteWorkerResult := do
  Durable.write fun files path =>
    if path ∈ ["notes/" ++ emptySha256 ++ ".json", "notes/" ++ emptySha256 ++ ".md"] then
      some ((files path).getD Document.empty)
    else files path
  return .accepted sampleNoteDigests

def sampleNoteRuntime : NoteGenerationRuntime SampleBytes where
  held _ := false
  worker _ := sampleNoteWorker
  inspect := sampleInspect
  operationId := sampleOperationId
  requestClock := 1754000000
  commitClock _ := 1754000060

def sampleNoteArguments : RegenerateNoteUiArgs where
  meetingId := sampleMeetingId
  sourceTranscriptSha256 := sampleBaseSha256
  speakerLabelOverrides := []
  vocabularyReplacements := []
  preMeetingContext := none

def sampleNoteRequest : NoteGenerationRequest where
  schema := .v1
  operationId := sampleOperationId
  meetingId := sampleMeetingId
  requestedAtEpochSeconds := 1754000000
  sourceTranscriptSha256 := sampleBaseSha256
  speakerLabelOverrides := []
  vocabularyReplacements := []
  priorNote := none
  preMeetingContext := none

def sampleNoteResult : NoteGenerationResult where
  schema := .v1
  operationId := sampleOperationId
  meetingId := sampleMeetingId
  sourceTranscriptSha256 := sampleBaseSha256
  status := .accepted
  note := some {
    json := ⟨"notes/" ++ emptySha256 ++ ".json", emptySha256⟩
    markdown := ⟨"notes/" ++ emptySha256 ++ ".md", emptySha256⟩
    sourceTranscriptSha256 := sampleBaseSha256 }
  failureCode := none

section Sample

open NoteGenerationCoordinator NoteRegeneration

/-- Any source is admitted. -/
abbrev admitSource : Reader SampleBytes → Except NoteGenerationCoordinatorError Unit :=
  fun _ => .ok ()

theorem inspectsFreshly_sample : InspectsFreshly sampleInspect := by
  have hread : ∀ (read : Reader SampleBytes) id note digests,
      sampleInspect read id note = .ok digests →
      digests.at "note" = note.json.sha256 ∧ digests.at "note-markdown" = note.markdown.sha256 ∧
      verifyArtifactRef read ⟨"notes" ++ "/" ++ note.json.sha256 ++ "." ++ "json",
        note.json.sha256⟩ = .ok () ∧
      verifyArtifactRef read ⟨"notes" ++ "/" ++ note.markdown.sha256 ++ "." ++ "md",
        note.markdown.sha256⟩ = .ok () := by
    intro read id note digests h
    unfold sampleInspect at h
    simp only [check_bind_eq_ok, mapError_eq_ok] at h
    obtain ⟨hjson, hmarkdown, heq⟩ := h
    cases heq
    exact ⟨rfl, rfl, hjson, hmarkdown⟩
  refine ⟨fun read id note digests h => ?_, fun read id note digests h => ?_,
    fun old new id note digests hkeeps h => ?_⟩
  · obtain ⟨hdigest, -, hjson, -⟩ := hread read id note digests h
    rw [hdigest]
    exact hjson
  · obtain ⟨-, hdigest, -, hmarkdown⟩ := hread read id note digests h
    rw [hdigest]
    exact hmarkdown
  · have hne : ∀ name, "notes" ++ "/" ++ name ≠ "meeting.json" := by
      intro name heq
      have hhead := congrArg (fun s => s.toList.head?) heq
      simp [String.toList_append] at hhead
    unfold sampleInspect at h ⊢
    simp only [check_bind_eq_ok, mapError_eq_ok] at h ⊢
    obtain ⟨hjson, hmarkdown, heq⟩ := h
    exact ⟨verifyArtifactRef_of_keeps hkeeps.reader (by rw [String.append_assoc, String.append_assoc]; exact hne _) hjson,
      verifyArtifactRef_of_keeps hkeeps.reader (by rw [String.append_assoc, String.append_assoc]; exact hne _) hmarkdown, heq⟩

theorem admitRequest_sampleNote :
    admitRequest sampleNoteRuntime admitSource sampleNoteArguments sampleLibrary =
      .ok sampleNoteRequest := by
  have hload : NoteGenerationCoordinator.loadAndVerifyMeeting
      (sampleLibrary.reader sampleMeetingId) sampleMeetingId = .ok sampleMeeting := by
    unfold NoteGenerationCoordinator.loadAndVerifyMeeting
    simp only [bind_eq_ok, mapError_eq_ok]
    exact ⟨sampleMeeting, loadMeeting_sample, (), verifyRecordArtifacts_sample, rfl⟩
  unfold admitRequest
  simp only [bind_eq_ok]
  exact ⟨(), by decide, (), rfl, (), rfl, sampleMeeting, hload, (), by decide, (), trivial, (),
    by decide, rfl⟩

theorem onlyAddsFiles_sampleNote : sampleNoteRuntime.OnlyAddsFiles := by
  intro arguments files t ht
  have htrace : (sampleNoteWorker.exec files).trace = [fun path =>
      if path ∈ ["notes/" ++ emptySha256 ++ ".json", "notes/" ++ emptySha256 ++ ".md"] then
        some ((files path).getD Document.empty) else files path] := rfl
  rw [show sampleNoteRuntime.worker arguments = sampleNoteWorker from rfl, htrace,
    List.mem_singleton] at ht
  subst ht
  intro path bytes hpath
  beta_reduce
  split <;> rw [hpath]
  rfl

theorem answersValidly_sampleNote :
    sampleNoteRuntime.AnswersValidly sampleNoteRequest sampleFiles := by
  have hresult : inspectWorkerResult sampleNoteRuntime
      ((sampleNoteWorker.exec sampleFiles).final sampleFiles).reader sampleNoteRequest
        (.accepted sampleNoteDigests) = .ok sampleNoteResult := by decide +kernel
  exact ⟨.accepted sampleNoteDigests, sampleNoteResult, rfl, hresult⟩

/-- The library after a call that stopped right after it stored its request. -/
def sampleNoteCrashed : Library SampleBytes :=
  run ProductCall.states sampleLibrary
    [(.regenerateNote sampleNoteRuntime admitSource sampleNoteArguments, 1)]

/-- A pass after the crash finishes the generation. -/
theorem note_generation_recovered_after_crash :
    Ended sampleNoteRequest sampleMeeting (run ProductCall.states sampleLibrary
      ((.regenerateNote sampleNoteRuntime admitSource sampleNoteArguments, 1) ::
        passes [wholePass sampleNoteRuntime sampleNoteCrashed])) := by
  have hrecord : sampleLibrary.meetings sampleNoteRequest.meetingId "meeting.json" =
      some (toVecPretty sampleMeeting) := by
    have hfiles : sampleLibrary.meetings sampleMeetingId = sampleFiles := by
      simp only [sampleLibrary, Library.opened, if_true]
    exact (congrFun hfiles _).trans (if_pos rfl)
  have hmeetings : sampleNoteCrashed.meetings = sampleLibrary.meetings :=
    meetings_of_stored admitRequest_sampleNote hrecord inspectsFreshly_sample rfl
      onlyAddsFiles_sampleNote
  have hpass : FinishingPass sampleNoteRequest sampleNoteCrashed
      (wholePass sampleNoteRuntime sampleNoteCrashed) := by
    apply finishingPass_of_answers rfl
    rw [hmeetings]
    exact answersValidly_sampleNote
  refine note_generation_recovered admitRequest_sampleNote hrecord rfl Nat.one_pos
    onlyAddsFiles_sampleNote inspectsFreshly_sample (fun pass hpass => ?_)
    (.inr ⟨[], _, [], rfl, hpass⟩)
  rw [List.mem_singleton.mp hpass]
  exact ⟨onlyAddsFiles_sampleNote, rfl⟩

end Sample

end YawnApp.SessionCore
