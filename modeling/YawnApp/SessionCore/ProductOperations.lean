import YawnApp.SessionCore.CoordinatorSteps

set_option autoImplicit false

/-!
# Runs of product operations

A run is a list of calls of the two coordinators, each stopped after any number
of its durable steps.  A meeting never has two pending operations in such a
run.  The reason is one fact about the steps: apart from the step that stores a
request, which comes right after the check that nothing is pending, every step
of either coordinator keeps the requests it finds and can only complete them.
-/

namespace YawnApp.SessionCore

open YawnApp.Foundation

variable {B : Type} {operations : Receipts} {id : Uuid}

/-! ## Completing and nothing else -/

/-- Every pending operation of `new` is pending in `old` with the same request. -/
def Receipts.Completes (old new : Receipts) : Prop :=
  ∀ id r, new.lookup id = some r → r.nonterminal = true →
    ∃ s, old.lookup id = some s ∧ s.nonterminal = true ∧ s.request = r.request

/-- A library whose store has gone on completing. -/
def Library.Completes (old new : Library B) : Prop := old.operations.Completes new.operations

theorem Receipts.Completes.refl (operations : Receipts) : operations.Completes operations :=
  fun _ r h hr => ⟨r, h, hr, rfl⟩

theorem Receipts.Completes.trans {a b c : Receipts} (hab : a.Completes b) (hbc : b.Completes c) :
    a.Completes c := by
  intro id r hr hpending
  obtain ⟨s, hs, hspending, hsr⟩ := hbc id r hr hpending
  obtain ⟨u, hu, hupending, hus⟩ := hab id s hs hspending
  exact ⟨u, hu, hupending, hus.trans hsr⟩

theorem Library.completes_refl (lib : Library B) : lib.Completes lib := Receipts.Completes.refl _

theorem Library.completes_trans (a b c : Library B) (hab : a.Completes b) (hbc : b.Completes c) :
    a.Completes c := Receipts.Completes.trans hab hbc

/-- Adding a receipt to an operation that is there completes it or leaves it
pending. -/
theorem Receipts.completes_insert {r s : StoredOperationReceipt}
    (hr : operations.lookup id = some r) (hrequest : s.request = r.request)
    (hpending : s.nonterminal = true → r.nonterminal = true) :
    operations.Completes (operations.insert id s) := by
  intro other u hu hupending
  by_cases hid : other = id
  · subst hid
    rw [AList.lookup_insert, Option.some.injEq] at hu
    subst hu
    exact ⟨r, hr, hpending hupending, hrequest.symm⟩
  · rw [AList.lookup_insert_ne hid] at hu
    exact ⟨u, hu, hupending, rfl⟩

/-! ### The durable steps of both coordinators -/

variable [Platform B] [DecidableEq B] {new : Receipts} {lib : Library B}

theorem Receipts.completes_of_writeResult {result : StoredOperationResult}
    (h : Receipts.writeResult B id result operations = .ok new) : operations.Completes new := by
  unfold Receipts.writeResult at h
  simp only [bind_eq_ok, orRefuse_eq_ok] at h
  obtain ⟨_, -, r, hr, _, -, _, -, heq⟩ := h
  cases heq
  exact Receipts.completes_insert hr rfl fun hpending => hpending

theorem Receipts.completes_of_writeCommit {commit : MeetingOperationCommit}
    {meeting : MeetingRecord} {meetingBytes : B}
    (h : Receipts.writeCommit id commit meeting meetingBytes operations = .ok new) :
    operations.Completes new := by
  unfold Receipts.writeCommit at h
  simp only [bind_eq_ok, orRefuse_eq_ok] at h
  obtain ⟨_, -, r, hr, _, -, _, -, _, -, _, -, heq⟩ := h
  cases heq
  exact Receipts.completes_insert hr rfl fun hpending => by
    simp [StoredOperationReceipt.nonterminal] at hpending

/-- Both coordinators complete, on whatever meeting they are at work. -/
theorem Library.completes_frame (meetingId : Uuid) :
    Library.Frame (B := B) Library.Completes meetingId where
  refl := Library.completes_refl
  trans := Library.completes_trans
  files _ _ := Receipts.Completes.refl _
  result _ _ _ _ h _ := Receipts.completes_of_writeResult h
  commit _ _ _ _ _ _ h _ := Receipts.completes_of_writeCommit h

/-- An admitted restoration found nothing pending for its meeting. -/
theorem TranscriptRestorationCoordinator.nothing_pending_of_admitted {rt : RestorationRuntime B}
    {arguments : RestoreWithheldTurnUiArgs} {request : TranscriptRestorationRequest}
    (h : admitRequest rt arguments lib = .ok request) : nonterminalForMeeting lib.operations
      (StoredOperationRequest.restoration request).meetingId = [] := by
  unfold admitRequest at h
  simp only [bind_eq_ok] at h
  obtain ⟨_, -, _, -, _, hnone, meeting, -, source, -, _, -, heq⟩ := h
  cases heq
  rw [refuseIf_eq_ok, not_not] at hnone
  exact hnone

omit [DecidableEq B] in
/-- So did an admitted note request. -/
theorem NoteGenerationCoordinator.nothing_pending_of_admitted {rt : NoteGenerationRuntime B}
    {sourceAdmission : Reader B → Except NoteGenerationCoordinatorError Unit}
    {arguments : RegenerateNoteUiArgs} {request : NoteGenerationRequest}
    (h : admitRequest rt sourceAdmission arguments lib = .ok request) :
    nonterminalForMeeting lib.operations
      (StoredOperationRequest.noteGeneration request).meetingId = [] := by
  unfold admitRequest at h
  simp only [bind_eq_ok] at h
  obtain ⟨_, -, _, -, _, hnone, meeting, -, _, -, _, -, _, -, heq⟩ := h
  cases heq
  rw [refuseIf_eq_ok, not_not] at hnone
  exact hnone

/-! ## Calls -/

variable (B) in
inductive ProductCall where
  | restoreWithheldTurn (rt : RestorationRuntime B) (arguments : RestoreWithheldTurnUiArgs)
  | regenerateNote (rt : NoteGenerationRuntime B)
      (sourceAdmission : Reader B → Except NoteGenerationCoordinatorError Unit)
      (arguments : RegenerateNoteUiArgs)
  | recoverRestorations (rt : RestorationRuntime B)
  | recoverNotes (rt : NoteGenerationRuntime B)

/-- The states of the library after each durable step of a call. -/
def ProductCall.states : ProductCall B → Library B → List (Library B)
  | .restoreWithheldTurn rt arguments, lib =>
    ((TranscriptRestorationCoordinator.restoreWithheldTurn rt arguments).exec lib).trace
  | .regenerateNote rt sourceAdmission arguments, lib =>
    ((NoteGenerationCoordinator.regenerateNoteWith rt sourceAdmission arguments).exec lib).trace
  | .recoverRestorations rt, lib =>
    ((TranscriptRestorationCoordinator.recoverIncomplete rt).exec lib).trace
  | .recoverNotes rt, lib => ((NoteGenerationCoordinator.recoverIncomplete rt).exec lib).trace

/-- A library whose operation store was just opened. -/
def Library.opened (meetings : Uuid → Files B) : Library B := { operations := ∅, meetings }

/-! ## One pending operation a meeting -/

/-- No meeting has two pending operations, of either kind. -/
def OnePending (operations : Receipts) : Prop :=
  ∀ id other r s, operations.lookup id = some r → operations.lookup other = some s →
    r.nonterminal = true → s.nonterminal = true → r.request.meetingId = s.request.meetingId →
    id = other

theorem OnePending.of_completes {old : Receipts} (h : OnePending old)
    (hcompletes : old.Completes new) : OnePending new := by
  intro id other r s hr hs hrpending hspending hmeeting
  obtain ⟨r', hr', hrpending', hrequest⟩ := hcompletes id r hr hrpending
  obtain ⟨s', hs', hspending', hrequest'⟩ := hcompletes other s hs hspending
  exact h id other r' s' hr' hs' hrpending' hspending' (by rw [hrequest, hrequest', hmeeting])

/-- Storing a request for a meeting with nothing pending. -/
theorem OnePending.of_writeRequest {old : Receipts} (h : OnePending old)
    {request : StoredOperationRequest} (hnone : nonterminalForMeeting old request.meetingId = [])
    (hwrite : Receipts.writeRequest B request old = .ok new) : OnePending new := by
  unfold Receipts.writeRequest at hwrite
  simp only [bind_eq_ok] at hwrite
  obtain ⟨_, -, _, -, heq⟩ := hwrite
  cases heq
  have hfree : ∀ id r, old.lookup id = some r → r.nonterminal = true →
      r.request.meetingId ≠ request.meetingId := by
    intro id r hr hpending hmeeting
    have hmem := mem_nonterminalForMeeting.mpr ⟨hr, hpending, hmeeting⟩
    rw [hnone] at hmem
    cases hmem
  -- an entry of the new table is the new request or one of the old ones
  have hentry : ∀ id r, (old.insert request.operationId
      { request, result := none, commit := none }).lookup id = some r →
      (id = request.operationId ∧ r.request = request) ∨
        (id ≠ request.operationId ∧ old.lookup id = some r) := by
    intro id r hr
    by_cases hid : id = request.operationId
    · subst hid
      rw [AList.lookup_insert, Option.some.injEq] at hr
      exact .inl ⟨rfl, by rw [← hr]⟩
    · rw [AList.lookup_insert_ne hid] at hr
      exact .inr ⟨hid, hr⟩
  intro id other r s hr hs hrpending hspending hmeeting
  rcases hentry id r hr with ⟨hid, hrequest⟩ | ⟨-, hr⟩ <;>
    rcases hentry other s hs with ⟨hother, hrequest'⟩ | ⟨-, hs⟩
  · rw [hid, hother]
  · exact absurd (by rw [← hmeeting, hrequest]) (hfree other s hs hspending)
  · exact absurd (by rw [hmeeting, hrequest']) (hfree id r hr hrpending)
  · exact h id other r s hr hs hrpending hspending hmeeting

/-- Storing the request of an admitted call and going on with it. -/
theorem onePending_of_admitted {ε α β : Type} {allow : Library B → Except ε α}
    {stored : α → StoredOperationRequest} {translate : OperationStoreError → ε}
    {rest : α → Durable (Library B) ε β} (h : OnePending lib.operations)
    (hallowed : ∀ a, allow lib = .ok a →
      nonterminalForMeeting lib.operations (stored a).meetingId = [])
    (hrest : ∀ a, Moves Library.Completes (rest a)) : ∀ t ∈ ((do
        let a ← Durable.inspect allow
        Durable.mapError translate (Library.updateOperations (Receipts.writeRequest B (stored a)))
        rest a : Durable (Library B) ε β).exec lib).trace, OnePending t.operations := by
  refine Meets.crash (Q := fun _ t => OnePending t.operations)
    (E := fun _ t => OnePending t.operations) ?_
  refine Meets.bind_inspect (fun a ha => ?_) fun _ _ => h
  refine Meets.bind (Meets.mapError (Meets.step (fun t ht => ?_) fun _ _ => h))
  rw [map_eq_ok] at ht
  obtain ⟨new, hnew, rfl⟩ := ht
  have hone : OnePending new := h.of_writeRequest (hallowed a ha) hnew
  exact ⟨hone, (hrest a).meets Library.completes_refl fun u hu => hone.of_completes hu⟩

/-- No step of any call leaves two pending operations of one meeting. -/
theorem ProductCall.onePending_states (call : ProductCall B) (lib : Library B)
    (h : OnePending lib.operations) : ∀ t ∈ call.states lib, OnePending t.operations := by
  cases call with
  | restoreWithheldTurn =>
    refine onePending_of_admitted h (fun request hrequest => ?_) fun request => ?_
    · exact TranscriptRestorationCoordinator.nothing_pending_of_admitted hrequest
    · exact (Library.completes_frame request.meetingId).bind
        (TranscriptRestorationCoordinator.moves_executeRequest (Library.completes_frame _))
        fun _ => Moves.pure _
  | regenerateNote =>
    refine onePending_of_admitted h (fun request hrequest => ?_) fun request => ?_
    · exact NoteGenerationCoordinator.nothing_pending_of_admitted hrequest
    · exact (Library.completes_frame request.meetingId).bind
        (NoteGenerationCoordinator.moves_executeRequest (Library.completes_frame _))
        fun _ => Moves.pure _
  | recoverRestorations =>
    intro t ht
    exact h.of_completes (TranscriptRestorationCoordinator.moves_recoverIncomplete
      Library.completes_frame lib t ht)
  | recoverNotes =>
    intro t ht
    exact h.of_completes (NoteGenerationCoordinator.moves_recoverIncomplete
      Library.completes_frame lib t ht)

theorem OnePending.length_nonterminalForMeeting (h : OnePending operations) (meetingId : Uuid) :
    (nonterminalForMeeting operations meetingId).length ≤ 1 := by
  cases hlist : nonterminalForMeeting operations meetingId with
  | nil => exact Nat.zero_le 1
  | cons first =>
    have hmem : (first.1, first.2) ∈ nonterminalForMeeting operations meetingId := by
      rw [hlist]
      exact List.mem_cons_self
    obtain ⟨hr, hrpending, hrmeeting⟩ := mem_nonterminalForMeeting.mp hmem
    have hsingle := nonterminalForMeeting_eq_singleton hmem fun other s hs => by
      obtain ⟨hs, hspending, hsmeeting⟩ := mem_nonterminalForMeeting.mp hs
      exact h other first.1 s first.2 hs hr hspending hrpending (hsmeeting.trans hrmeeting.symm)
    rw [← hlist, hsingle]
    exact Nat.le_refl 1

/-- From an operation store just opened, no run of the two coordinators, each
call stopped anywhere, leaves a meeting with two pending operations. -/
theorem at_most_one_nonterminal_operation (meetings : Uuid → Files B)
    (attempts : List (ProductCall B × Nat)) (meetingId : Uuid) :
    (nonterminalForMeeting
      (run ProductCall.states (Library.opened meetings) attempts).operations meetingId).length ≤ 1 := by
  refine OnePending.length_nonterminalForMeeting ?_ meetingId
  refine run_invariant_of_trace ProductCall.states (I := fun lib => OnePending lib.operations)
    (fun lib call h => call.onePending_states lib h) attempts _ ?_
  intro id other r s hr
  rw [show (Library.opened meetings).operations = ∅ from rfl, AList.lookup_empty] at hr
  cases hr

end YawnApp.SessionCore
