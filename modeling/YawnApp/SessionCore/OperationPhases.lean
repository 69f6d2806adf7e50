/-
  SessionCore/OperationPhases.lean --- the life of one product operation.

  Whatever happens to the process, a product operation goes through four
  phases: its request is stored, its result is stored, its result is published
  in the meeting record, its commit is stored.  This file has the phases, the
  receipts that stand in the store in each of them, and what work on other
  meetings leaves alone.  The two coordinators' recoveries are proved against
  them.
-/
import YawnApp.Foundation.Simulation
import YawnApp.SessionCore.KeptArtifacts
import YawnApp.SessionCore.ProductOperations

set_option autoImplicit false

namespace YawnApp.SessionCore

open YawnApp.Foundation Receipts

variable {B Result : Type}

/-! ## Phases -/

/-- How far an operation has come. -/
inductive OperationPhase (Result : Type) where
  | requested
  | resulted (result : Result)
  | published (result : Result)
  | committed (result : Result) (commit : MeetingOperationCommit)

namespace OperationPhase

/-- One step of an operation.  A result that changes nothing in the record is
committed as it stands. -/
inductive Next : OperationPhase Result → OperationPhase Result → Prop
  | stay (phase : OperationPhase Result) : Next phase phase
  | result (result : Result) : Next .requested (.resulted result)
  | publish (result : Result) : Next (.resulted result) (.published result)
  | commit (result : Result) (commit : MeetingOperationCommit) :
      Next (.published result) (.committed result commit)
  | commitUnchanged (result : Result) (commit : MeetingOperationCommit) :
      Next (.resulted result) (.committed result commit)

/-- The result of an operation, once there is one. -/
def result? : OperationPhase Result → Option Result
  | .requested => none
  | .resulted result | .published result | .committed result _ => some result

/-- Whether the record stands where the result puts it. -/
def isPublished : OperationPhase Result → Bool
  | .requested | .resulted _ => false
  | .published _ | .committed _ _ => true

def isCommitted : OperationPhase Result → Bool
  | .committed _ _ => true
  | _ => false

variable {p q : OperationPhase Result}

/-- A result that is stored stays. -/
theorem Next.result? (h : Next p q) {result : Result} (hp : p.result? = some result) :
    q.result? = some result := by
  cases h <;> simp_all [OperationPhase.result?]

theorem Next.isPublished (h : Next p q) (hp : p.isPublished = true) : q.isPublished = true := by
  cases h <;> simp_all [OperationPhase.isPublished]

theorem result?_of_reaches (h : Relation.ReflTransGen Next p q) {result : Result}
    (hp : p.result? = some result) : q.result? = some result := by
  induction h with
  | refl => exact hp
  | tail _ hnext ih => exact hnext.result? ih

theorem Next.isCommitted (h : Next p q) (hp : p.isCommitted = true) : q.isCommitted = true := by
  cases h <;> simp_all [OperationPhase.isCommitted]

/-- A committed operation stays so. -/
theorem isCommitted_of_reaches (h : Relation.ReflTransGen Next p q) (hp : p.isCommitted = true) :
    q.isCommitted = true := by
  induction h with
  | refl => exact hp
  | tail _ hnext ih => exact hnext.isCommitted ih

/-- The receipts that stand in the store in each phase. -/
def receipt (request : StoredOperationRequest) (stored : Result → StoredOperationResult) :
    OperationPhase Result → StoredOperationReceipt
  | .requested => { request, result := none, commit := none }
  | .resulted result | .published result =>
    { request, result := some (stored result), commit := none }
  | .committed result commit => { request, result := some (stored result), commit := some commit }

theorem receipt_request (request : StoredOperationRequest) (stored : Result → StoredOperationResult)
    (phase : OperationPhase Result) : (phase.receipt request stored).request = request := by
  cases phase <;> rfl

theorem nonterminal_receipt (request : StoredOperationRequest)
    (stored : Result → StoredOperationResult) (phase : OperationPhase Result) :
    (phase.receipt request stored).nonterminal = !phase.isCommitted := by
  cases phase <;> rfl

end OperationPhase

/-! ## The store in a phase -/

/-- No operation but `id` is pending for the meeting. -/
def Receipts.Sole (operations : Receipts) (meetingId id : Uuid) : Prop :=
  ∀ other r, operations.lookup other = some r → r.nonterminal = true →
    r.request.meetingId = meetingId → other = id

theorem Receipts.Sole.insert {operations : Receipts} {meetingId id : Uuid}
    (h : operations.Sole meetingId id) (r : StoredOperationReceipt) :
    Receipts.Sole (operations.insert id r) meetingId id := by
  intro other s hs hpending hmeeting
  by_cases hid : other = id
  · exact hid
  · rw [AList.lookup_insert_ne hid] at hs
    exact h other s hs hpending hmeeting

/-- The store shows a phase of the operation, and nothing else is pending for
its meeting. -/
structure OperationPhase.Stored (request : StoredOperationRequest)
    (stored : Result → StoredOperationResult) (phase : OperationPhase Result)
    (operations : Receipts) : Prop where
  receipt : operations.lookup request.operationId = some (phase.receipt request stored)
  sole : operations.Sole request.meetingId request.operationId

namespace OperationPhase.Stored

variable {request : StoredOperationRequest} {stored : Result → StoredOperationResult}
  {phase : OperationPhase Result} {operations : Receipts}

theorem insert (h : phase.Stored request stored operations) (next : OperationPhase Result) :
    next.Stored request stored
      (operations.insert request.operationId (next.receipt request stored)) where
  receipt := AList.lookup_insert _
  sole := h.sole.insert _

/-- A pending operation is the one its meeting's list has. -/
theorem nonterminal_eq (h : phase.Stored request stored operations)
    (hphase : phase.isCommitted = false) :
    nonterminalForMeeting operations request.meetingId =
      [(request.operationId, phase.receipt request stored)] := by
  refine nonterminalForMeeting_eq_singleton (mem_nonterminalForMeeting.mpr
    ⟨h.receipt, ?_, ?_⟩) fun other s hs => ?_
  · rw [nonterminal_receipt, hphase]
    rfl
  · rw [receipt_request]
  · obtain ⟨hs, hpending, hmeeting⟩ := mem_nonterminalForMeeting.mp hs
    exact h.sole other s hs hpending hmeeting

/-- Once the operation is committed its meeting has nothing pending. -/
theorem nonterminal_eq_nil (h : phase.Stored request stored operations)
    (hphase : phase.isCommitted = true) :
    nonterminalForMeeting operations request.meetingId = [] := by
  rw [List.eq_nil_iff_forall_not_mem]
  rintro ⟨other, s⟩ hs
  obtain ⟨hs, hpending, hmeeting⟩ := mem_nonterminalForMeeting.mp hs
  have hid := h.sole other s hs hpending hmeeting
  subst hid
  rw [h.receipt, Option.some.injEq] at hs
  rw [← hs, nonterminal_receipt, hphase] at hpending
  cases hpending

end OperationPhase.Stored

/-! ## The steps of the store -/

section Writers

variable [Platform B] [DecidableEq B] {operations : Receipts} {request : StoredOperationRequest}

theorem placeReceipt_of_none {bytes : B}
    (h : ByteString.size bytes ≤ maxReceiptBytes) : placeReceipt B none bytes = .ok () := by
  unfold placeReceipt
  rw [refuseIf_of_not (Nat.not_lt.mpr h)]
  rfl

/-- A valid request is stored under a fresh identifier. -/
theorem Receipts.writeRequest_of_fresh (hvalid : request.validate = .ok ())
    (hfresh : operations.lookup request.operationId = none) :
    writeRequest B request operations =
      .ok (operations.insert request.operationId { request, result := none, commit := none }) := by
  unfold writeRequest
  rw [hvalid, ok_bind, hfresh]
  exact congrArg (· >>= _) (placeReceipt_of_none (StoredOperationRequest.fits (B := B) hvalid))

/-- A valid result that belongs to its request is stored. -/
theorem Receipts.writeResult_of_requested {result : StoredOperationResult} {id : Uuid}
    (hvalid : result.validate = .ok ())
    (hfits : ByteString.size (result.canonicalBytes : B) ≤ maxReceiptBytes)
    (hreceipt : operations.lookup id = some { request, result := none, commit := none })
    (hmatch : resultMatchesRequest request result = true) :
    writeResult B id result operations =
      .ok (operations.insert id { request, result := some result, commit := none }) := by
  unfold writeResult validateResultMatchesRequest
  rw [hvalid, ok_bind, hreceipt, orRefuse_some, ok_bind, refuseIf_of_not (by simp [hmatch]), ok_bind]
  exact congrArg (· >>= _) (placeReceipt_of_none hfits)

/-- A commit that belongs to its receipts and to the record is stored. -/
theorem Receipts.writeCommit_of_resulted {result : StoredOperationResult}
    {commit : MeetingOperationCommit} {meeting : MeetingRecord} {meetingBytes : B} {id : Uuid}
    (hvalid : commit.validate = .ok ())
    (hreceipt : operations.lookup id = some { request, result := some result, commit := none })
    (hmatch : commitMatchesReceipts B request result commit = true)
    (hmeeting : validateCommitMeeting commit meeting meetingBytes = .ok ()) :
    writeCommit id commit meeting meetingBytes operations =
      .ok (operations.insert id { request, result := some result, commit := some commit }) := by
  unfold writeCommit validateCommitMatchesReceipts
  rw [hvalid, mapError_ok, ok_bind, hreceipt, orRefuse_some, ok_bind, orRefuse_some, ok_bind,
    refuseIf_of_not (by simp [hmatch]), ok_bind, hmeeting, mapError_ok, ok_bind]
  exact congrArg (· >>= _) (placeReceipt_of_none (MeetingOperationCommit.fits (B := B) hvalid))

end Writers

/-! ## Work on other meetings -/

/-- The receipts of one meeting are what they were. -/
def Receipts.LeavesAlone (meetingId : Uuid) (old new : Receipts) : Prop :=
  ∀ id r, r.request.meetingId = meetingId → (new.lookup id = some r ↔ old.lookup id = some r)

/-- The receipts and the files of one meeting are what they were. -/
def Library.LeavesAlone (meetingId : Uuid) (old new : Library B) : Prop :=
  new.meetings meetingId = old.meetings meetingId ∧
    Receipts.LeavesAlone meetingId old.operations new.operations

/-- Changing a receipt of another meeting. -/
theorem Receipts.leavesAlone_insert {operations : Receipts} {meetingId id : Uuid}
    {r s : StoredOperationReceipt} (hr : operations.lookup id = some r)
    (hrequest : s.request = r.request) (hmeeting : r.request.meetingId ≠ meetingId) :
    Receipts.LeavesAlone meetingId operations (operations.insert id s) := by
  intro other u hu
  by_cases hid : other = id
  · subst hid
    refine ⟨fun h => ?_, fun h => ?_⟩
    · rw [AList.lookup_insert, Option.some.injEq] at h
      exact absurd (by rw [← hrequest, h, hu]) hmeeting
    · rw [hr, Option.some.injEq] at h
      exact absurd (by rw [h, hu]) hmeeting
  · rw [AList.lookup_insert_ne hid]

section Receipts

variable [Platform B] [DecidableEq B] {operations new : Receipts} {meetingId id : Uuid}

/-- Storing the result of a request of another meeting. -/
theorem Receipts.leavesAlone_writeResult {result : StoredOperationResult}
    (h : writeResult B id result operations = .ok new)
    (hother : ∀ request, resultMatchesRequest request result = true → request.meetingId ≠ meetingId) :
    Receipts.LeavesAlone meetingId operations new := by
  unfold writeResult validateResultMatchesRequest at h
  simp only [bind_eq_ok, orRefuse_eq_ok, refuseIf_eq_ok, not_not] at h
  obtain ⟨_, -, r, hr, _, hmatch, _, -, heq⟩ := h
  cases heq
  exact leavesAlone_insert hr rfl (hother _ hmatch)

/-- Storing the commit of another meeting. -/
theorem Receipts.leavesAlone_writeCommit {commit : MeetingOperationCommit}
    {meeting : MeetingRecord} {meetingBytes : B}
    (h : writeCommit id commit meeting meetingBytes operations = .ok new)
    (hother : commit.meetingId ≠ meetingId) : Receipts.LeavesAlone meetingId operations new := by
  unfold writeCommit validateCommitMatchesReceipts at h
  simp only [bind_eq_ok, orRefuse_eq_ok, refuseIf_eq_ok, not_not] at h
  obtain ⟨_, -, r, hr, result, -, _, hmatch, _, -, _, -, heq⟩ := h
  cases heq
  exact leavesAlone_insert hr rfl
    (commitMatchesReceipts_meetingId hmatch ▸ hother)

end Receipts

namespace Library

variable {meetingId : Uuid}

theorem LeavesAlone.refl (lib : Library B) : lib.LeavesAlone meetingId lib :=
  ⟨rfl, fun _ _ _ => Iff.rfl⟩

theorem LeavesAlone.trans (a b c : Library B) (hab : a.LeavesAlone meetingId b)
    (hbc : b.LeavesAlone meetingId c) : a.LeavesAlone meetingId c :=
  ⟨hbc.1.trans hab.1, fun id r hr => (hbc.2 id r hr).trans (hab.2 id r hr)⟩

end Library

/-- A coordinator at work on one meeting leaves the others alone. -/
theorem Library.leavesAlone_frame [Platform B] [DecidableEq B] {meetingId other : Uuid}
    (h : other ≠ meetingId) : Library.Frame (B := B) (Library.LeavesAlone meetingId) other where
  refl := LeavesAlone.refl
  trans := LeavesAlone.trans
  files lib files := ⟨lib.setMeeting_meetings_of_ne files (Ne.symm h), fun _ _ _ => Iff.rfl⟩
  result _ _ _ _ hwrite hmeeting :=
    ⟨rfl, leavesAlone_writeResult hwrite fun request hmatch => hmeeting request hmatch ▸ h⟩
  commit _ _ _ _ _ _ hwrite hmeeting :=
    ⟨rfl, leavesAlone_writeCommit hwrite (hmeeting ▸ h)⟩

end YawnApp.SessionCore
