import YawnApp.SessionCore.Operations
import YawnApp.SessionCore.Storage

set_option autoImplicit false

/-!
# The operation store (`operation_store.rs`)

The store is the directory `operations/`.  Each operation has a directory
named by its identifier, and in it up to three files: `request.json`,
`result.json` and `commit.json`.  A receipt is written once and never changed.
The three writers and the scan are here step by step, so that a crash can be
put between any two of their steps.

A receipt is read back through the same checks it was written through: the
schema, the contract and the canonical text.
-/

namespace YawnApp.SessionCore

open YawnApp.Foundation

/-! ## Errors and stored receipts -/

inductive OperationStoreError where
  | invalidPrivateStorage
  | malformed (detail : String)
  | alreadyExists
  | conflictingBytes
  | io (kind : IoError)
deriving DecidableEq, Repr

def OperationStoreError.ofMeeting : MeetingError → OperationStoreError
  | .io kind => .io kind
  | _ => .invalidPrivateStorage

def OperationStoreError.ofContract : OperationContractError → OperationStoreError
  | _ => .malformed "receipt contract is invalid"

inductive StoredOperationRequest where
  | restoration (request : TranscriptRestorationRequest)
  | noteGeneration (request : NoteGenerationRequest)
deriving DecidableEq

inductive StoredOperationResult where
  | restoration (result : TranscriptRestorationResult)
  | noteGeneration (result : NoteGenerationResult)
deriving DecidableEq

structure StoredOperationReceipt where
  request : StoredOperationRequest
  result : Option StoredOperationResult
  commit : Option MeetingOperationCommit
deriving DecidableEq

inductive OperationReceiptState where
  | requestOnly
  | resultStored
  | committed
deriving DecidableEq, Repr

namespace StoredOperationRequest

def operationId : StoredOperationRequest → Uuid
  | .restoration request => request.operationId
  | .noteGeneration request => request.operationId

def meetingId : StoredOperationRequest → Uuid
  | .restoration request => request.meetingId
  | .noteGeneration request => request.meetingId

def validate (r : StoredOperationRequest) : Except OperationStoreError Unit :=
  (match r with
    | .restoration request => request.validate
    | .noteGeneration request => request.validate).mapError .ofContract

def canonicalBytes {B : Type} [Platform B] : StoredOperationRequest → B
  | .restoration request => toVecPretty request
  | .noteGeneration request => toVecPretty request

end StoredOperationRequest

namespace StoredOperationResult

def validate (r : StoredOperationResult) : Except OperationStoreError Unit :=
  (match r with
    | .restoration result => result.validate
    | .noteGeneration result => result.validate).mapError .ofContract

def canonicalBytes {B : Type} [Platform B] : StoredOperationResult → B
  | .restoration result => toVecPretty result
  | .noteGeneration result => toVecPretty result

end StoredOperationResult

/-- The state of an operation.  A commit without a result is refused when the
receipts are read, so the last case is the one the source calls unreachable. -/
def StoredOperationReceipt.state (r : StoredOperationReceipt) : OperationReceiptState :=
  match r.result, r.commit with
  | none, none => .requestOnly
  | some _, none => .resultStored
  | some _, some _ => .committed
  | none, some _ => .committed

/-! ## Receipts that agree -/

def resultMatchesRequest : StoredOperationRequest → StoredOperationResult → Bool
  | .restoration request, .restoration result =>
    request.operationId == result.operationId && request.meetingId == result.meetingId &&
      request.sourceTranscriptSha256 == result.sourceTranscriptSha256
  | .noteGeneration request, .noteGeneration result =>
    request.operationId == result.operationId && request.meetingId == result.meetingId &&
      request.sourceTranscriptSha256 == result.sourceTranscriptSha256
  | _, _ => false

def validateResultMatchesRequest (request : StoredOperationRequest)
    (result : StoredOperationResult) : Except OperationStoreError Unit :=
  refuseIf (¬ resultMatchesRequest request result)
    (.malformed "request and result schemas disagree")

section Coherence

variable (B : Type) [Platform B]

def commitMatchesReceipts (request : StoredOperationRequest) (result : StoredOperationResult)
    (commit : MeetingOperationCommit) : Bool :=
  let requestDigest := Platform.sha256 (request.canonicalBytes : B)
  let resultDigest := Platform.sha256 (result.canonicalBytes : B)
  match request, result with
  | .restoration request, .restoration result =>
    commit.operationId == request.operationId && commit.meetingId == request.meetingId &&
      commit.kind == .restoreWithheldTurn && commit.outcome == .transcriptRestored &&
      commit.requestSha256 == requestDigest && commit.resultSha256 == resultDigest &&
      commit.currentTranscriptSha256 == result.view.sha256
  | .noteGeneration request, .noteGeneration result =>
    commit.operationId == request.operationId && commit.meetingId == request.meetingId &&
      commit.kind == .generateNote && commit.outcome == result.status.outcome &&
      commit.requestSha256 == requestDigest && commit.resultSha256 == resultDigest &&
      commit.currentTranscriptSha256 == request.sourceTranscriptSha256 &&
      commit.currentNote == publishedNote request result
  | _, _ => false

def validateCommitMatchesReceipts (request : StoredOperationRequest)
    (result : StoredOperationResult) (commit : MeetingOperationCommit) :
    Except OperationStoreError Unit :=
  refuseIf (¬ commitMatchesReceipts B request result commit)
    (.malformed "commit does not bind the stored receipts")

end Coherence

/-! ## Parsing -/

section Parsing

variable {B : Type} [Platform B] [DecidableEq B]

def ensureCanonical {α : Type} [Serde α] (bytes : B) (a : α) : Except OperationStoreError Unit :=
  refuseIf (bytes ≠ toVecPretty a) (.malformed "receipt bytes are not canonical")

def parseRequest (bytes : B) : Except OperationStoreError StoredOperationRequest :=
  match (fromSlice bytes : Option TranscriptRestorationRequest) with
  | some request => do
    request.validate.mapError .ofContract
    ensureCanonical bytes request
    return .restoration request
  | none => do
    let request ← orRefuse (fromSlice bytes : Option NoteGenerationRequest)
      (.malformed "request schema is not recognized")
    request.validate.mapError .ofContract
    ensureCanonical bytes request
    return .noteGeneration request

def parseResult (bytes : B) : Except OperationStoreError StoredOperationResult :=
  match (fromSlice bytes : Option TranscriptRestorationResult) with
  | some result => do
    result.validate.mapError .ofContract
    ensureCanonical bytes result
    return .restoration result
  | none => do
    let result ← orRefuse (fromSlice bytes : Option NoteGenerationResult)
      (.malformed "result schema is not recognized")
    result.validate.mapError .ofContract
    ensureCanonical bytes result
    return .noteGeneration result

def parseCommit (bytes : B) : Except OperationStoreError MeetingOperationCommit := do
  let commit ← orRefuse (fromSlice bytes : Option MeetingOperationCommit)
    (.malformed "commit schema is not recognized")
  commit.validate.mapError .ofContract
  ensureCanonical bytes commit
  return commit

end Parsing

/-! ## The places of the store -/

inductive ReceiptName where
  | request
  | result
  | commit
deriving DecidableEq, Repr

/-- The names an entry of `operations/` can have, as `operation_id_from_entry`
tells them apart. -/
inductive EntryName where
  /-- The canonical text of an identifier. -/
  | canonical (id : Uuid)
  /-- Another text that `Uuid::parse_str` reads. -/
  | nonCanonical (name : String)
  /-- A text it does not read. -/
  | foreign (name : String)
deriving DecidableEq

inductive OperationPath where
  /-- The private application root. -/
  | storage
  /-- `operations/`. -/
  | operations
  /-- `operations/<name>`. -/
  | entry (name : EntryName)
  /-- `operations/<id>/request.json` and its two siblings. -/
  | receipt (id : Uuid) (name : ReceiptName)
  /-- `operations/<id>/.<name>.json.<nonce>.tmp`. -/
  | temporary (id : Uuid) (name : ReceiptName) (nonce : Uuid)
deriving DecidableEq

instance : Location OperationPath where
  ancestors
    | .storage => []
    | .operations => [.storage]
    | .entry _ => [.operations, .storage]
    | .receipt id _ => [.entry (.canonical id), .operations, .storage]
    | .temporary id _ _ => [.entry (.canonical id), .operations, .storage]

/-- `operation_path`. -/
def operationPath (id : Uuid) : OperationPath := .entry (.canonical id)

/-! ## The store -/

section Store

variable {B : Type} [Platform B] [DecidableEq B]

/-- The contents of the application root as far as the store reaches. -/
abbrev StoreVolume (B : Type) : Type := Volume OperationPath B

/-- `create_new_private_directory`. -/
def createNewPrivateDirectory (path parent : OperationPath) :
    Durable (StoreVolume B) OperationStoreError Unit := do
  Durable.inspect fun v => (requirePrivateDirectory v parent).mapError .ofMeeting
  Durable.mapError .io (Durable.step (Volume.createDir 0o700 path))
  Durable.inspect fun v => (requirePrivateDirectory v path).mapError .ofMeeting

/-- The first half of `create_private_operation_root` and of
`ensure_operation_dir`, which are the same: a directory that is there must be
private, and one that is not is made. -/
def ensurePrivateDirectory (path parent : OperationPath) :
    Durable (StoreVolume B) OperationStoreError Unit := do
  match ← Durable.inspect fun v => .ok (v.node path) with
  | some (.directory mode) =>
    Durable.lift (refuseIf (permissions mode ≠ 0o700) .invalidPrivateStorage)
  | some _ => Durable.fail .invalidPrivateStorage
  | none => createNewPrivateDirectory path parent

namespace OperationStore

/-- `OperationStore::open`. -/
def «open» : Durable (StoreVolume B) OperationStoreError Unit := do
  ensurePrivateDirectory .operations .storage
  Durable.inspect fun v => (requirePrivateDirectory v .operations).mapError .ofMeeting

def ensureOperationDir (id : Uuid) : Durable (StoreVolume B) OperationStoreError Unit := do
  ensurePrivateDirectory (operationPath id) .operations
  Durable.inspect fun v => (requirePrivateDirectory v (operationPath id)).mapError .ofMeeting

def existingOperationDir (v : StoreVolume B) (id : Uuid) : Except OperationStoreError Unit :=
  (requirePrivateDirectory v (operationPath id)).mapError .ofMeeting

/-- What `durable_create_new` reports to the writer of a receipt. -/
def receiptError : IoError → OperationStoreError
  | .alreadyExists => .alreadyExists
  | kind => .io kind

/-- What `write_receipt` finds at the receipt's place. -/
def receiptPlaceFree (v : StoreVolume B) (path : OperationPath) (bytes : B) :
    Except OperationStoreError Unit :=
  match v.node path with
  | none => .ok ()
  | some (.file mode _) => do
    refuseIf (permissions mode ≠ 0o600) .invalidPrivateStorage
    let existing ← (readPrivateBytes v path maxReceiptBytes).mapError .ofMeeting
    if existing = bytes then .error .alreadyExists else .error .conflictingBytes
  | some _ => .error .invalidPrivateStorage

/-- `write_receipt`; `nonce` names the temporary file. -/
def writeReceipt (id : Uuid) (name : ReceiptName) (nonce : Uuid) (bytes : B) :
    Durable (StoreVolume B) OperationStoreError Unit := do
  Durable.lift (refuseIf (ByteString.size bytes > maxReceiptBytes)
    (.malformed "operation receipt exceeds its bounded size"))
  Durable.inspect fun v => receiptPlaceFree v (.receipt id name) bytes
  Durable.mapError receiptError
    (durableCreateNew (.receipt id name) (.temporary id name nonce) bytes)

def readRequired {α : Type} (v : StoreVolume B) (id : Uuid) (name : ReceiptName)
    (parse : B → Except OperationStoreError α) : Except OperationStoreError α := do
  refuseIf ((v.node (.receipt id name)).isNone) (.malformed "operation request is missing")
  let bytes ← (readPrivateBytes v (.receipt id name) maxReceiptBytes).mapError .ofMeeting
  parse bytes

def readOptional {α : Type} (v : StoreVolume B) (id : Uuid) (name : ReceiptName)
    (parse : B → Except OperationStoreError α) : Except OperationStoreError (Option α) :=
  if (v.node (.receipt id name)).isNone then .ok none
  else do
    let bytes ← (readPrivateBytes v (.receipt id name) maxReceiptBytes).mapError .ofMeeting
    let a ← parse bytes
    return some a

def loadRequest (v : StoreVolume B) (id : Uuid) :
    Except OperationStoreError StoredOperationRequest := readRequired v id .request parseRequest

def loadResult (v : StoreVolume B) (id : Uuid) :
    Except OperationStoreError (Option StoredOperationResult) :=
  readOptional v id .result parseResult

def loadCommit (v : StoreVolume B) (id : Uuid) :
    Except OperationStoreError (Option MeetingOperationCommit) :=
  readOptional v id .commit parseCommit

/-- The last checks of `load_from_dir`, over the three receipts. -/
def validateStoredReceipts (request : StoredOperationRequest)
    (result : Option StoredOperationResult) (commit : Option MeetingOperationCommit) :
    Except OperationStoreError Unit :=
  match result, commit with
  | none, some _ => .error (.malformed "terminal commit lacks a result")
  | some result, some commit => validateCommitMatchesReceipts B request result commit
  | _, none => .ok ()

def loadFromDir (v : StoreVolume B) (id : Uuid) :
    Except OperationStoreError StoredOperationReceipt := do
  (requirePrivateDirectory v (operationPath id)).mapError .ofMeeting
  let request ← loadRequest v id
  refuseIf (request.operationId ≠ id) (.malformed "request identifier differs from directory")
  let result ← loadResult v id
  checkSome result (validateResultMatchesRequest request)
  let commit ← loadCommit v id
  validateStoredReceipts (B := B) request result commit
  return { request, result, commit }

/-- `OperationStore::load`. -/
def load (v : StoreVolume B) (id : Uuid) : Except OperationStoreError StoredOperationReceipt := do
  existingOperationDir v id
  loadFromDir v id

/-- `OperationStore::write_request`. -/
def writeRequest (request : StoredOperationRequest) (nonce : Uuid) :
    Durable (StoreVolume B) OperationStoreError Unit := do
  Durable.lift request.validate
  ensureOperationDir request.operationId
  writeReceipt request.operationId .request nonce request.canonicalBytes

/-- `OperationStore::write_result`. -/
def writeResult (id : Uuid) (result : StoredOperationResult) (nonce : Uuid) :
    Durable (StoreVolume B) OperationStoreError Unit := do
  Durable.lift result.validate
  Durable.inspect fun v => existingOperationDir v id
  let request ← Durable.inspect fun v => loadRequest v id
  Durable.lift (validateResultMatchesRequest request result)
  writeReceipt id .result nonce result.canonicalBytes

/-- `OperationStore::write_commit`. -/
def writeCommit (id : Uuid) (commit : MeetingOperationCommit) (meeting : MeetingRecord)
    (meetingBytes : B) (nonce : Uuid) : Durable (StoreVolume B) OperationStoreError Unit := do
  Durable.lift (commit.validate.mapError .ofContract)
  Durable.inspect fun v => existingOperationDir v id
  let request ← Durable.inspect fun v => loadRequest v id
  let stored ← Durable.inspect fun v => loadResult v id
  let result ← Durable.lift (orRefuse stored (.malformed "terminal commit lacks a result"))
  Durable.lift (validateCommitMatchesReceipts B request result commit)
  Durable.lift ((validateCommitMeeting commit meeting meetingBytes).mapError .ofContract)
  writeReceipt id .commit nonce (toVecPretty commit)

/-- `operation_id_from_entry`. -/
def operationIdFromEntry (name : EntryName) (n : Node B) : Except OperationStoreError Uuid := do
  match n with
  | .directory mode => refuseIf (permissions mode ≠ 0o700) .invalidPrivateStorage
  | _ => .error .invalidPrivateStorage
  match name with
  | .canonical id => return id
  | .nonCanonical _ => .error (.malformed "operation directory name is not canonical")
  | .foreign _ => .error (.malformed "operation directory name is invalid")

/-- The receipts of a scan, by operation. -/
abbrev Scanned : Type := AList fun _ : Uuid => StoredOperationReceipt

/-- The loop of `scan` over the entries that are left. -/
def scanEntries (v : StoreVolume B) :
    List (OperationPath × Node B) → Scanned → Except OperationStoreError Scanned
  | [], receipts => .ok receipts
  | (.entry name, n) :: rest, receipts => do
    let id ← operationIdFromEntry name n
    let receipt ← loadFromDir v id
    refuseIf (id ∈ receipts) (.malformed "duplicate operation identifier")
    scanEntries v rest (receipts.insert id receipt)
  | _ :: rest, receipts => scanEntries v rest receipts

/-- `OperationStore::scan`. -/
def scan (v : StoreVolume B) : Except OperationStoreError Scanned := do
  (requirePrivateDirectory v .operations).mapError .ofMeeting
  scanEntries v (v.readDir .operations) ∅

end OperationStore

end Store

end YawnApp.SessionCore
