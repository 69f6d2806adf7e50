/-
  SessionCore/CoordinatorSteps.lean --- the durable steps of both coordinators.

  At work on a meeting a coordinator takes four kinds of durable steps: it
  stores a result or a commit of an operation of the meeting, it replaces the
  meeting record, and its worker changes files of the meeting.  A relation
  between libraries that these steps respect holds between the library a
  program starts from and every library it passes.  `Library.Frame` is that
  condition on a relation, and there is one lemma for each program.  Storing a
  request is not among the steps: only the two entry points do that.
-/
import YawnApp.SessionCore.NoteGeneration
import YawnApp.SessionCore.TranscriptRestoration

set_option autoImplicit false

namespace YawnApp.SessionCore

open YawnApp.Foundation

variable {B : Type} [Platform B] [DecidableEq B]

/-- A relation that the durable steps of a coordinator at work on one meeting
respect. -/
structure Library.Frame (R : Library B → Library B → Prop) (meetingId : Uuid) : Prop where
  refl : ∀ lib, R lib lib
  trans : ∀ a b c, R a b → R b c → R a c
  files : ∀ (lib : Library B) (files : Files B), R lib (lib.setMeeting meetingId files)
  result : ∀ (lib : Library B) id result new, Receipts.writeResult B id result lib.operations = .ok new →
    (∀ request, resultMatchesRequest request result = true → request.meetingId = meetingId) →
    R lib { lib with operations := new }
  commit : ∀ (lib : Library B) id commit meeting (bytes : B) new,
    Receipts.writeCommit id commit meeting bytes lib.operations = .ok new →
    commit.meetingId = meetingId → R lib { lib with operations := new }

namespace Library.Frame

variable {R : Library B → Library B → Prop} {meetingId : Uuid}

/-- Sequencing, for this relation. -/
theorem bind (hR : Library.Frame R meetingId) {ε α β : Type} {m : Durable (Library B) ε α}
    {k : α → Durable (Library B) ε β} (hm : Moves R m) (hk : ∀ a, Moves R (k a)) :
    Moves R (m >>= k) := Moves.bind hR.refl hR.trans hm hk

theorem inMeeting (hR : Library.Frame R meetingId) {ε α : Type} (program : Durable (Files B) ε α) :
    Moves R (Library.inMeeting meetingId program) := Moves.zoom program hR.files

theorem writeMeeting (hR : Library.Frame R meetingId) (meeting : MeetingRecord) :
    Moves R (Library.writeMeeting meetingId meeting) := by
  apply Moves.step
  intro lib t ht
  rw [bind_eq_ok] at ht
  obtain ⟨bytes, -, heq⟩ := ht
  cases heq
  exact hR.files lib _

theorem writeResult (hR : Library.Frame R meetingId) {id : Uuid} {result : StoredOperationResult}
    (h : ∀ request, resultMatchesRequest request result = true → request.meetingId = meetingId) :
    Moves R (Library.updateOperations (Receipts.writeResult B id result)) := by
  apply Moves.step
  intro lib t ht
  rw [map_eq_ok] at ht
  obtain ⟨new, hnew, rfl⟩ := ht
  exact hR.result lib id result new hnew h

theorem writeCommit (hR : Library.Frame R meetingId) {id : Uuid} {commit : MeetingOperationCommit}
    {meeting : MeetingRecord} {bytes : B} (h : commit.meetingId = meetingId) :
    Moves R (Library.updateOperations (Receipts.writeCommit id commit meeting bytes)) := by
  apply Moves.step
  intro lib t ht
  rw [map_eq_ok] at ht
  obtain ⟨new, hnew, rfl⟩ := ht
  exact hR.commit lib id commit meeting bytes new hnew h

end Library.Frame

omit [DecidableEq B] in
/-- A commit belongs to the meeting of its request. -/
theorem commitMatchesReceipts_meetingId {request : StoredOperationRequest}
    {result : StoredOperationResult} {commit : MeetingOperationCommit}
    (h : commitMatchesReceipts B request result commit = true) :
    request.meetingId = commit.meetingId := by
  cases request <;> cases result <;>
    simp_all [commitMatchesReceipts, StoredOperationRequest.meetingId]

/-! ## The restoration coordinator -/

namespace TranscriptRestorationCoordinator

variable {R : Library B → Library B → Prop} {rt : RestorationRuntime B}
  {request : TranscriptRestorationRequest}

theorem moves_writeTerminalCommit (hR : Library.Frame R request.meetingId)
    (result : TranscriptRestorationResult) : Moves R (writeTerminalCommit rt request result) := by
  refine Moves.bind_inspect fun lib (commit, meeting, bytes) hprepare => ?_
  have hcommit : commit.meetingId = request.meetingId := by
    unfold prepareCommit at hprepare
    simp only [bind_eq_ok] at hprepare
    obtain ⟨_, -, _, -, _, -, _, -, _, -, _, -, _, -, _, -, heq⟩ := hprepare
    cases heq
    rfl
  exact Moves.mapError (hR.writeCommit hcommit) lib

theorem moves_applyResult (hR : Library.Frame R request.meetingId)
    (result : TranscriptRestorationResult) : Moves R (applyResult rt request result) :=
  hR.bind (Moves.inspect _) fun meeting =>
    hR.bind (Moves.mapError (hR.writeMeeting meeting)) fun _ =>
      moves_writeTerminalCommit hR result

theorem moves_executeRequest (hR : Library.Frame R request.meetingId) :
    Moves R (executeRequest rt request) := by
  refine hR.bind (Moves.inspect _) fun (source, arguments) => ?_
  apply hR.bind (Moves.mapError (hR.inMeeting _))
  intro digests
  apply Moves.bind_inspect
  intro lib result hinspect
  have hmeeting : result.meetingId = request.meetingId := by
    unfold inspectWorkerResult at hinspect
    simp only [bind_eq_ok] at hinspect
    obtain ⟨_, -, _, -, _, -, _, -, _, -, heq⟩ := hinspect
    cases heq
    rfl
  refine hR.bind (Moves.mapError (hR.writeResult fun other hmatch => ?_))
    (fun _ => moves_applyResult hR result) lib
  cases other with
  | noteGeneration => simp [resultMatchesRequest] at hmatch
  | restoration =>
    simp only [resultMatchesRequest, Bool.and_eq_true, beq_iff_eq] at hmatch
    exact hmatch.1.2.trans hmeeting

theorem moves_resumeRequest (hR : Library.Frame R request.meetingId)
    (stored : Option StoredOperationResult) : Moves R (resumeRequest rt request stored) := by
  match stored with
  | none =>
    apply hR.bind (Moves.inspect _)
    intro _
    exact hR.bind (moves_executeRequest hR) fun _ => Moves.pure _
  | some (.noteGeneration _) => exact hR.bind (Moves.inspect _) fun _ => Moves.fail _
  | some (.restoration result) =>
    apply hR.bind (Moves.inspect _)
    intro recovery
    cases recovery with
    | applyValidatedResult => exact hR.bind (moves_applyResult hR result) fun _ => Moves.pure _
    | writeMissingCommit =>
      exact hR.bind (moves_writeTerminalCommit hR result) fun _ => Moves.pure _
    | retryRequest => exact Moves.fail _

theorem moves_recoverMeeting {meetingId : Uuid} (hR : Library.Frame R meetingId) :
    Moves R (recoverMeeting rt meetingId) := by
  unfold recoverMeeting
  split
  · exact Moves.pure _
  · apply Moves.bind_inspect
    intro lib pending hpending
    cases hpending
    split
    · rename_i id receipt hlist
      have hmem : (id, receipt) ∈ nonterminalForMeeting lib.operations meetingId := by
        rw [hlist]
        exact List.mem_cons_self
      have hmeeting := (mem_nonterminalForMeeting.mp hmem).2.2
      split
      · exact Moves.pure _ lib
      · rename_i request hrequest
        rw [hrequest] at hmeeting
        cases hmeeting
        refine hR.bind (Moves.attempt (moves_resumeRequest hR _)) (fun outcome => ?_) lib
        cases outcome <;> exact Moves.pure _
    · exact Moves.pure _ lib

theorem moves_recoverMeetings (hR : ∀ meetingId, Library.Frame R meetingId)
    (meetings : List Uuid) : Moves R (recoverMeetings rt meetings) := by
  cases meetings with
  | nil => exact Moves.pure []
  | cons meetingId rest =>
    exact Moves.forEach (hR meetingId).refl (hR meetingId).trans
      (fun meetingId => moves_recoverMeeting (hR meetingId)) (meetingId :: rest)

theorem moves_recoverIncomplete (hR : ∀ meetingId, Library.Frame R meetingId) :
    Moves R (recoverIncomplete rt) :=
  Moves.bind_inspect fun lib meetings _ => moves_recoverMeetings hR meetings lib

end TranscriptRestorationCoordinator

/-! ## The note coordinator -/

namespace NoteGenerationCoordinator

variable {R : Library B → Library B → Prop} {rt : NoteGenerationRuntime B}
  {request : NoteGenerationRequest}

theorem moves_writeTerminalCommit (hR : Library.Frame R request.meetingId)
    (result : NoteGenerationResult) : Moves R (writeTerminalCommit rt request result) := by
  refine Moves.bind_inspect fun lib (commit, meeting, bytes) hprepare => ?_
  have hcommit : commit.meetingId = request.meetingId := by
    unfold prepareCommit at hprepare
    simp only [bind_eq_ok] at hprepare
    obtain ⟨_, -, _, -, _, -, _, -, _, -, _, -, heq⟩ := hprepare
    cases heq
    rfl
  exact Moves.mapError (hR.writeCommit hcommit) lib

theorem moves_applyResult (hR : Library.Frame R request.meetingId)
    (result : NoteGenerationResult) : Moves R (applyResult rt request result) := by
  apply hR.bind (Moves.inspect _)
  intro prepared
  cases prepared with
  | none => exact moves_writeTerminalCommit hR result
  | some meeting =>
    exact hR.bind (Moves.mapError (hR.writeMeeting meeting)) fun _ =>
      moves_writeTerminalCommit hR result

omit [Platform B] [DecidableEq B] in
theorem inspectWorkerResult_meetingId {read : Reader B} {answer : NoteWorkerResult}
    {result : NoteGenerationResult} (h : inspectWorkerResult rt read request answer = .ok result) :
    result.meetingId = request.meetingId := by
  cases answer with
  | accepted =>
    simp only [inspectWorkerResult, inspectAccepted, bind_eq_ok] at h
    obtain ⟨_, -, _, -, _, -, _, -, heq⟩ := h
    cases heq
    rfl
  | rejected =>
    simp only [inspectWorkerResult, inspectRejected, bind_eq_ok] at h
    obtain ⟨_, -, _, -, heq⟩ := h
    cases heq
    rfl

theorem moves_executeRequest (hR : Library.Frame R request.meetingId) :
    Moves R (executeRequest rt request) := by
  apply hR.bind (Moves.inspect _)
  intro workerArguments
  apply hR.bind (Moves.mapError (hR.inMeeting _))
  intro answer
  apply Moves.bind_inspect
  intro lib result hinspect
  have hmeeting := inspectWorkerResult_meetingId hinspect
  refine hR.bind (Moves.mapError (hR.writeResult fun other hmatch => ?_))
    (fun _ => moves_applyResult hR result) lib
  cases other with
  | restoration => simp [resultMatchesRequest] at hmatch
  | noteGeneration =>
    simp only [resultMatchesRequest, Bool.and_eq_true, beq_iff_eq] at hmatch
    exact hmatch.1.2.trans hmeeting

theorem moves_resumeRequest (hR : Library.Frame R request.meetingId)
    (stored : Option StoredOperationResult) : Moves R (resumeRequest rt request stored) := by
  match stored with
  | none =>
    apply hR.bind (Moves.inspect _)
    intro _
    exact hR.bind (moves_executeRequest hR) fun _ => Moves.pure _
  | some (.restoration _) => exact hR.bind (Moves.inspect _) fun _ => Moves.fail _
  | some (.noteGeneration result) =>
    apply hR.bind (Moves.inspect _)
    intro recovery
    cases recovery with
    | applyValidatedResult => exact hR.bind (moves_applyResult hR result) fun _ => Moves.pure _
    | writeMissingCommit =>
      exact hR.bind (moves_writeTerminalCommit hR result) fun _ => Moves.pure _
    | retryRequest => exact Moves.fail _

theorem moves_recoverMeeting {meetingId : Uuid} (hR : Library.Frame R meetingId) :
    Moves R (recoverMeeting rt meetingId) := by
  unfold recoverMeeting
  split
  · exact Moves.pure _
  · apply Moves.bind_inspect
    intro lib pending hpending
    cases hpending
    split
    · rename_i id receipt hlist
      have hmem : (id, receipt) ∈ nonterminalForMeeting lib.operations meetingId := by
        rw [hlist]
        exact List.mem_cons_self
      have hmeeting := (mem_nonterminalForMeeting.mp hmem).2.2
      split
      · exact Moves.pure _ lib
      · rename_i request hrequest
        rw [hrequest] at hmeeting
        cases hmeeting
        refine hR.bind (Moves.attempt (moves_resumeRequest hR _)) (fun outcome => ?_) lib
        cases outcome <;> exact Moves.pure _
    · exact Moves.pure _ lib

theorem moves_recoverMeetings (hR : ∀ meetingId, Library.Frame R meetingId)
    (meetings : List Uuid) : Moves R (recoverMeetings rt meetings) := by
  cases meetings with
  | nil => exact Moves.pure []
  | cons meetingId rest =>
    exact Moves.forEach (hR meetingId).refl (hR meetingId).trans
      (fun meetingId => moves_recoverMeeting (hR meetingId)) (meetingId :: rest)

theorem moves_recoverIncomplete (hR : ∀ meetingId, Library.Frame R meetingId) :
    Moves R (recoverIncomplete rt) :=
  Moves.bind_inspect fun lib meetings _ => moves_recoverMeetings hR meetings lib

end NoteGenerationCoordinator

end YawnApp.SessionCore
