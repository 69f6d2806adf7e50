import YawnApp.SessionCore.QueueReceipts

set_option autoImplicit false

/-!
# The transcription queue (`transcription_queue.rs`)

A request for a transcript is a directory `transcription-queue/<id>` below its
meeting.  No receipt in it is ever rewritten: the state of a request is which
receipts there are.  The six operations and the discovery are here step by step,
so that a crash can be put between any two of their steps.

`create_private_dir` is `mkdir` and then `chmod`: between the two a directory is
there that no reader accepts.
-/

namespace YawnApp.SessionCore

open YawnApp.Foundation

/-! ## Checks -/

/-- `MAX_TRANSCRIPT_BYTES`. -/
def maxQueuedTranscriptBytes : Nat := 16 * 1024 * 1024

def isHexDigit (c : Char) : Bool :=
  ('0' ≤ c && c ≤ '9') || ('a' ≤ c && c ≤ 'f') || ('A' ≤ c && c ≤ 'F')

/-- `is_sha256`: the letters may be of either case. -/
def isSha256 (value : String) : Bool :=
  value.toList.length == 64 && value.toList.all isHexDigit

def validIdentity (value : String) (maximum : Nat) : Bool :=
  value != "" && decide (value.utf8ByteSize ≤ maximum) &&
    value.toList.all fun c => c.isAlphanum || ['-', '_', '.', '@'].contains c

def TranscriptionProducer.validates : TranscriptionProducer → Bool
  | .whisper modelIdentity => validIdentity modelIdentity 256
  | .appleNative locale helperSha256 assetIdentity osVersion =>
    validIdentity locale 64 && isSha256 helperSha256 && assetIdentity == "os-managed" &&
      osVersion != "" && decide (osVersion.utf8ByteSize ≤ 1024)

def TranscriptionRequest.validate (r : TranscriptionRequest) :
    Except TranscriptionQueueError Unit := do
  refuseIf (¬ validOpaqueId r.meetingId ∨ r.modelIdentity = "" ∨ r.workerRuntimeIdentity = "")
    (.malformed "request identity")
  refuseIf (∃ producer ∈ r.producer, ¬ producer.validates) (.malformed "transcription producer")
  refuseIf (∃ digest ∈ [r.captureSessionSha256, r.microphoneAudioSha256, r.systemAudioSha256],
    ¬ isSha256 digest) (.malformed "source digest")

/-- `verify_transcript_ref`. -/
def verifyTranscriptRef (reference : ArtifactRef) : Except TranscriptionQueueError Unit := do
  refuseIf (¬ reference.relativePath.startsWith "transcript/" ∨
      ¬ reference.relativePath.endsWith ".json" ∨ ¬ isSha256 reference.sha256)
    (.malformed "transcript artifact reference")
  refuseIf (['.', '.'] <:+: reference.relativePath.toList) .invalidPrivateStorage

section Queue

variable {B : Type} [Platform B]

/-! ## Reading an item -/

/-- `read_json` of a receipt that must be there. -/
def readJson {α : Type} [Serde α] (file : Option B) : Except TranscriptionQueueError α := do
  let bytes ← orRefuse file (.meeting (.io .notFound))
  refuseIf (ByteString.size bytes > maxQueueReceiptBytes) (.meeting .invalidPrivateStorage)
  orRefuse (fromSlice bytes) .json

/-- `read_optional_json`. -/
def readOptionalJson {α : Type} [Serde α] (file : Option B) :
    Except TranscriptionQueueError (Option α) :=
  match file with
  | none => .ok none
  | some bytes => (readJson (some bytes)).map some

/-- The loop of `load_live_claim` over the claim folders. -/
def liveClaim (requestId : Uuid) : List (Uuid × (ClaimReceipt → Option B)) →
    Option TranscriptionClaim → Except TranscriptionQueueError (Option TranscriptionClaim)
  | [], live => .ok live
  | (_, receipts) :: rest, live => do
    let claim ← readJson (α := TranscriptionClaim) (receipts .claim)
    refuseIf (claim.requestId ≠ requestId) (.malformed "claim request identifier")
    let release ← readOptionalJson (α := TranscriptionClaimRelease) (receipts .release)
    match release with
    | some release => do
      refuseIf (release.claimId ≠ claim.claimId ∨ release.requestId ≠ requestId)
        (.malformed "claim release identifier")
      liveClaim requestId rest live
    | none => do
      refuseIf live.isSome (.malformed "multiple live claims")
      liveClaim requestId rest (some claim)

/-- `load_item`. -/
def loadItem (item : ItemView B) (requestId : Uuid) :
    Except TranscriptionQueueError TranscriptionQueueItem := do
  refuseIf (item.isPrivate = false) (.meeting .invalidPrivateStorage)
  let request ← readJson (α := TranscriptionRequest) (item.receipts .request)
  refuseIf (request.requestId ≠ requestId) (.malformed "request identifier")
  refuseIf (item.claimsPrivate = false) (.meeting .invalidPrivateStorage)
  let claim ← liveClaim requestId item.claims none
  let result ← readOptionalJson (α := TranscriptionResult) (item.receipts .result)
  let terminal ← readOptionalJson (α := TranscriptionTerminal) (item.receipts .terminal)
  let commit ← readOptionalJson (α := TranscriptionCommit) (item.receipts .commit)
  refuseIf (result.isSome ∧ terminal.map TranscriptionTerminal.kind ≠ some .quarantined ∧
    terminal.isSome) (.malformed "result and ordinary terminal both present")
  refuseIf (commit.isSome ∧ result.isNone) (.malformed "commit without result")
  refuseIf (commit.isSome ∧ terminal.isSome) (.malformed "commit and terminal both present")
  return { request, claim, result, terminal, commit }

/-- An item that can still run. -/
def TranscriptionQueueItem.isOpen (item : TranscriptionQueueItem) : Bool :=
  item.commit.isNone && item.terminal.isNone

/-- `verify_source`. -/
def verifySource (read : Reader B) (meeting : MeetingRecord) (request : TranscriptionRequest) :
    Except TranscriptionQueueError Unit := do
  (verifyRecordArtifacts read meeting).mapError .meeting
  refuseIf (meeting.artifacts.captureSession.map ArtifactRef.sha256 ≠
        some request.captureSessionSha256 ∨
      meeting.artifacts.microphoneAudio.map ArtifactRef.sha256 ≠
        some request.microphoneAudioSha256 ∨
      meeting.artifacts.systemAudio.map ArtifactRef.sha256 ≠ some request.systemAudioSha256)
    .sourceChanged

namespace TranscriptionQueue

/-! ## Reading a meeting -/

/-- `load_item` of one request. -/
def loadItemOf (id : Uuid) (m : MeetingDirectory B) :
    Except TranscriptionQueueError TranscriptionQueueItem := do
  let item ← orRefuse (m.view? id) (.meeting (.io .notFound))
  loadItem item id

/-- `load_meeting` in the queue's words. -/
def loadMeetingOf (name : String) (m : MeetingDirectory B) :
    Except TranscriptionQueueError MeetingRecord :=
  (loadMeeting m.reader name).mapError .meeting

/-- `load_source`. -/
def loadSource (name : String) (request : TranscriptionRequest) (m : MeetingDirectory B) :
    Except TranscriptionQueueError MeetingRecord := do
  let meeting ← loadMeetingOf name m
  refuseIf (meeting.lifecycle ≠ .captured ∨ meeting.retention.state ≠ .retained) .ineligibleMeeting
  verifySource m.reader meeting request
  return meeting

/-- One entry of a listed queue folder. -/
def listedItem (m : MeetingDirectory B) (meeting : MeetingRecord) (id : Uuid) :
    Except TranscriptionQueueError TranscriptionQueueItem := do
  let item ← loadItemOf id m
  if item.isOpen then do
    verifySource m.reader meeting item.request
    checkSome item.result fun result =>
      (verifyArtifactRef m.reader result.transcript).mapError .meeting
  return item

/-- `listed_meeting_items`. -/
def listedMeetingItems (m : MeetingDirectory B) (meeting : MeetingRecord) :
    Except TranscriptionQueueError (Option (List TranscriptionQueueItem)) :=
  match m.queue with
  | none => .ok none
  | some queue => do
    refuseIf (queue.isPrivate = false) (.meeting .invalidPrivateStorage)
    ((queue.names.insertionSort fun a b => a.text ≤ b.text).mapM (listedItem m meeting)).map some

/-- `add_listed_meeting`. -/
def addListedMeeting (discovery : QueueDiscovery) (name : String) (m : MeetingDirectory B)
    (meeting : MeetingRecord)
    (scanned : Except TranscriptionQueueError (Option (List TranscriptionQueueItem))) :
    Except TranscriptionQueueError QueueDiscovery :=
  if m.record.isNone then .ok discovery
  else do
    match ← scanned with
    | some items => return { discovery with items := discovery.items ++ items }
    | none =>
      return if meeting.lifecycle = .captured then
        { discovery with orphanCapturedMeetings := discovery.orphanCapturedMeetings ++ [name] }
        else discovery

/-- The loop of `discover` over the names of `meetings/`.  A meeting whose record
does not load is passed over. -/
def discoverNames (meetings : Meetings B) : List String → QueueDiscovery →
    Except TranscriptionQueueError QueueDiscovery
  | [], discovery => .ok discovery
  | name :: rest, discovery =>
    match meetings.entry name with
    | none => discoverNames meetings rest discovery
    | some m =>
      match loadMeeting m.reader name with
      | .error _ => discoverNames meetings rest discovery
      | .ok meeting => do
        let discovery ← addListedMeeting discovery name m meeting (listedMeetingItems m meeting)
        discoverNames meetings rest discovery

/-- `TranscriptionQueue::discover`. -/
def discover (meetings : Meetings B) : Except TranscriptionQueueError QueueDiscovery :=
  discoverNames meetings (meetings.names.insertionSort fun a b => a ≤ b) ⟨[], []⟩

/-- `locate`: the first meeting listed that has a directory for the request. -/
def locate (id : Uuid) (meetings : Meetings B) : Except TranscriptionQueueError String :=
  orRefuse (meetings.names.find? fun name =>
    ((meetings.entry name).bind fun m => m.item? id).isSome) (.malformed "request not found")

/-! ## The operations in their meeting -/

/-- A receipt of one request, created once. -/
def createReceipt (id : Uuid) (name : QueueReceipt) (bytes : B) :
    Durable (MeetingDirectory B) TranscriptionQueueError Unit :=
  Durable.mapError .io (MeetingDirectory.inReceipts id (Drawer.createNew name bytes))

/-- `item_dir` makes the queue folder. -/
def createQueueFolder : Durable (MeetingDirectory B) TranscriptionQueueError Unit := do
  let queue ← Durable.inspect fun m => .ok m.queue
  if queue.isNone then
    Durable.write fun m => { m with queue := some Directory.made }
  Durable.write fun m => { m with queue := m.queue.map Directory.chmod }

/-- `create_private_dir` of the directory of a new request. -/
def createItemDirectory (id : Uuid) : Durable (MeetingDirectory B) TranscriptionQueueError Unit := do
  Durable.write fun m => m.setItem id ItemDirectory.made
  MeetingDirectory.inReceipts id (Durable.write Drawer.chmod)

/-- `create_private_dir` of `claims/`. -/
def createClaimsDirectory (id : Uuid) :
    Durable (MeetingDirectory B) TranscriptionQueueError Unit := do
  let claims ← Durable.inspect fun m => .ok ((m.item? id).bind ItemDirectory.claims)
  if claims.isNone then
    MeetingDirectory.inClaims id (Durable.write fun _ => Directory.made)
  MeetingDirectory.inClaims id (Durable.write Directory.chmod)

/-- `create_private_dir` of the folder of one claim. -/
def createClaimFolder (id claimId : Uuid) :
    Durable (MeetingDirectory B) TranscriptionQueueError Unit := do
  let folder ← Durable.inspect fun m =>
    .ok ((m.item? id).bind fun item => item.claimFolders.entry claimId)
  if folder.isNone then
    MeetingDirectory.inClaims id (Durable.write fun claims => claims.put claimId Drawer.made)
  MeetingDirectory.inClaims id (Directory.within claimId (Durable.write Drawer.chmod))

/-- A receipt of one claim, created once. -/
def createClaimReceipt (id claimId : Uuid) (name : ClaimReceipt) (bytes : B) :
    Durable (MeetingDirectory B) TranscriptionQueueError Unit :=
  Durable.mapError .io
    (MeetingDirectory.inClaims id (Directory.within claimId (Drawer.createNew name bytes)))

/-- The cleanup of `enqueue`: the directory of a request without its receipt, if
it is empty. -/
def removeItemDirectory (id : Uuid) (m : MeetingDirectory B) :
    Except IoError (MeetingDirectory B) :=
  match m.item? id with
  | none => .error .notFound
  | some item =>
    if item.receipts.temporaries ≠ [] ∨ item.claims.isSome then .error .other
    else .ok { m with queue := m.queue.map fun queue => queue.remove id }

/-- `enqueue` in the meeting of the request. -/
def enqueueIn (request : TranscriptionRequest) :
    Durable (MeetingDirectory B) TranscriptionQueueError TranscriptionQueueItem := do
  let meeting ← Durable.inspect (loadSource request.meetingId request)
  createQueueFolder
  match ← Durable.inspect fun m => .ok (m.item? request.requestId) with
  | some _ => do
    let existing ← Durable.inspect (loadItemOf request.requestId)
    Durable.lift (refuseIf (existing.request ≠ request) .conflictingRequest)
    pure existing
  | none => do
    createItemDirectory request.requestId
    Durable.onError (createReceipt request.requestId .request (toVecPretty request))
      (Durable.step (removeItemDirectory request.requestId) :
        Durable (MeetingDirectory B) IoError Unit)
    Durable.inspect fun m => verifySource m.reader meeting request
    Durable.inspect (loadItemOf request.requestId)

/-- `claim` in the meeting of the request. -/
def claimIn (name : String) (id : Uuid) (workerRuntimeIdentity : String) (clock : UInt64)
    (claimId : Uuid) :
    Durable (MeetingDirectory B) TranscriptionQueueError TranscriptionQueueItem := do
  let item ← Durable.inspect (loadItemOf id)
  let meeting ← Durable.inspect (loadSource name item.request)
  Durable.inspect fun m => verifySource m.reader meeting item.request
  Durable.lift (refuseIf (item.terminal.isSome ∨ item.commit.isSome) .terminal)
  Durable.lift (refuseIf item.claim.isSome .alreadyClaimed)
  let claim : TranscriptionClaim :=
    { schema := .v1, requestId := id, claimId, workerRuntimeIdentity, claimedAtEpochSeconds := clock }
  createClaimsDirectory id
  createClaimFolder id claimId
  createClaimReceipt id claimId .claim (toVecPretty claim)
  Durable.inspect (loadItemOf id)

/-- The end of `release_claim`, once the source was checked. -/
def appendRelease (id claimId : Uuid) (clock : UInt64) (item : TranscriptionQueueItem) :
    Durable (MeetingDirectory B) TranscriptionQueueError TranscriptionQueueItem := do
  let claim ← Durable.lift (orRefuse item.claim (.malformed "claim missing"))
  Durable.lift (refuseIf (claim.claimId ≠ claimId) (.malformed "claim identifier"))
  let release : TranscriptionClaimRelease :=
    { schema := .v1, requestId := id, claimId, releasedAtEpochSeconds := clock }
  let released ← Durable.inspect fun m => .ok (((m.item? id).bind fun item =>
    item.claimFolders.entry claim.claimId).bind fun folder => folder.linked .release)
  if released.isNone then
    createClaimReceipt id claim.claimId .release (toVecPretty release)
  Durable.inspect (loadItemOf id)

/-- `release_claim` in the meeting of the request.  The source of a request that
has ended is not looked at. -/
def releaseClaimIn (name : String) (id claimId : Uuid) (clock : UInt64) :
    Durable (MeetingDirectory B) TranscriptionQueueError TranscriptionQueueItem := do
  let item ← Durable.inspect (loadItemOf id)
  if item.isOpen then do
    let meeting ← Durable.inspect (loadSource name item.request)
    Durable.inspect fun m => verifySource m.reader meeting item.request
    appendRelease id claimId clock item
  else appendRelease id claimId clock item

/-- `resolve_artifact`: the path is safe and every directory on the way private. -/
def resolveArtifact (relativePath : String) (tree : ArtifactTree B) : Except MeetingError Unit := do
  refuseIf (¬ isSafeArtifactPath relativePath) (.malformed "artifact path is unsafe")
  (MeetingPath.above (components relativePath)).tail.forM fun directory =>
    requirePrivateDirectory tree (.entry directory)

/-- `path_exists`: a symbolic link is taken for nothing. -/
def pathExists (path : MeetingPath) (tree : ArtifactTree B) : Bool :=
  match tree.node path with
  | none => false
  | some .symlink => false
  | some _ => true

/-- The steps of `admit_result` in the artifacts: the transcript's directory and,
unless the same bytes are there already, the transcript. -/
def storeTranscript [DecidableEq B] (transcriptBytes : B) (transcript : ArtifactRef) (nonce : Uuid) :
    Durable (ArtifactTree B) TranscriptionQueueError Unit := do
  Durable.mapError .io (createPrivateDir (.entry ["transcript"]))
  Durable.inspect fun tree => (resolveArtifact transcript.relativePath tree).mapError .meeting
  let path := components transcript.relativePath
  if ← Durable.inspect fun tree => .ok (pathExists (.entry path) tree) then do
    let existing ← Durable.inspect fun tree =>
      (readPrivateBytes tree (.entry path) maxQueuedTranscriptBytes).mapError .meeting
    Durable.lift (refuseIf (existing ≠ transcriptBytes) .sourceChanged)
  else do
    let parent ← Durable.lift (orRefuse (parent? (MeetingPath.entry path)) .invalidPrivateStorage)
    Durable.mapError .io (createPrivateDir parent)
    Durable.mapError .io (durableCreateNew (.entry path) (.temporary path nonce) transcriptBytes)

/-- `admit_result` in the meeting of the request. -/
def admitResultIn [DecidableEq B] (name : String) (id : Uuid) (transcriptBytes : B)
    (transcript : ArtifactRef) (clock : UInt64) (nonce : Uuid) :
    Durable (MeetingDirectory B) TranscriptionQueueError TranscriptionQueueItem := do
  let item ← Durable.inspect (loadItemOf id)
  let meeting ← Durable.inspect (loadSource name item.request)
  Durable.inspect fun m => verifySource m.reader meeting item.request
  Durable.lift (refuseIf (item.terminal.isSome ∨ item.commit.isSome) .terminal)
  let digest := Platform.sha256 transcriptBytes
  Durable.lift (refuseIf (transcript.sha256 ≠ digest) .sourceChanged)
  Durable.lift (verifyTranscriptRef transcript)
  MeetingDirectory.inTree (storeTranscript transcriptBytes transcript nonce)
  Durable.inspect fun m => (verifyArtifactRef m.reader transcript).mapError .meeting
  let result : TranscriptionResult :=
    { schema := .v1, requestId := id, meetingId := item.request.meetingId, transcript,
      resultSha256 := digest, producedAtEpochSeconds := clock }
  createReceipt id .result (toVecPretty result)
  Durable.inspect (loadItemOf id)

/-- The record that `commit` publishes. -/
def publishedRecord (meeting : MeetingRecord) (transcript : ArtifactRef) : MeetingRecord :=
  { meeting with
    lifecycle := .transcriptReady
    artifacts := { meeting.artifacts with currentTranscript := some transcript }
    retention := { meeting.retention with state := .retained } }

/-- The middle of `commit`: the pointer of the meeting, unless a crash came after
it was written. -/
def publish (name : String) (meeting : MeetingRecord) (transcript : ArtifactRef) :
    Durable (MeetingDirectory B) TranscriptionQueueError Unit :=
  if meeting.lifecycle = .transcriptReady ∧ meeting.artifacts.currentTranscript = some transcript then
    pure ()
  else do
    Durable.lift (refuseIf (meeting.lifecycle ≠ .captured) .ineligibleMeeting)
    let bytes ← Durable.lift ((meetingBytes (publishedRecord meeting transcript) name).mapError .meeting)
    MeetingDirectory.replaceRecord bytes

/-- `commit` in the meeting of the request. -/
def commitIn (name : String) (id : Uuid) (clock : UInt64) :
    Durable (MeetingDirectory B) TranscriptionQueueError TranscriptionQueueItem := do
  let item ← Durable.inspect (loadItemOf id)
  let result ← Durable.lift (orRefuse item.result .missingResult)
  let meeting ← Durable.inspect (loadMeetingOf name)
  Durable.inspect fun m => verifySource m.reader meeting item.request
  Durable.inspect fun m => (verifyArtifactRef m.reader result.transcript).mapError .meeting
  match item.commit with
  | some commit => do
    Durable.lift (refuseIf (commit.resultSha256 ≠ result.resultSha256) .conflictingRequest)
    pure item
  | none => do
    Durable.lift (refuseIf item.terminal.isSome .terminal)
    publish name meeting result.transcript
    let meetingBytes ← Durable.inspect fun m => orRefuse m.record (.io .notFound)
    let commit : TranscriptionCommit :=
      { schema := .v1, requestId := id, meetingId := item.request.meetingId,
        resultSha256 := result.resultSha256,
        committedMeetingSha256 := Platform.sha256 meetingBytes, committedAtEpochSeconds := clock }
    createReceipt id .commit (toVecPretty commit)
    Durable.inspect (loadItemOf id)

/-- `fail` in the meeting of the request. -/
def failIn (name : String) (id : Uuid) (kind : TranscriptionTerminalKind) (clock : UInt64) :
    Durable (MeetingDirectory B) TranscriptionQueueError TranscriptionQueueItem := do
  let item ← Durable.inspect (loadItemOf id)
  let meeting ← Durable.inspect (loadMeetingOf name)
  Durable.inspect fun m => verifySource m.reader meeting item.request
  Durable.lift (refuseIf item.commit.isSome .missingResult)
  Durable.lift (refuseIf (item.result.isSome ∧ kind ≠ .quarantined)
    (.malformed "ordinary failure cannot follow an admitted result"))
  match item.terminal with
  | some existing => do
    Durable.lift (refuseIf (existing.kind ≠ kind) .conflictingRequest)
    pure item
  | none => do
    let terminal : TranscriptionTerminal :=
      { schema := .v1, requestId := id, kind, atEpochSeconds := clock }
    createReceipt id .terminal (toVecPretty terminal)
    Durable.inspect (loadItemOf id)

/-! ## The operations -/

/-- A program in the meeting that has the request. -/
def inLocated {α : Type} (id : Uuid)
    (program : String → Durable (MeetingDirectory B) TranscriptionQueueError α) :
    Durable (Meetings B) TranscriptionQueueError α := do
  let name ← Durable.inspect (locate id)
  Directory.within name (program name)

/-- `meeting_dir`. -/
def meetingDir (name : String) (meetings : Meetings B) : Except TranscriptionQueueError Unit := do
  refuseIf (¬ validOpaqueId name) (.malformed "meeting identifier")
  refuseIf (meetings.entry name).isNone (.meeting (.io .notFound))

/-- `TranscriptionQueue::enqueue`. -/
def enqueue (request : TranscriptionRequest) :
    Durable (Meetings B) TranscriptionQueueError TranscriptionQueueItem := do
  Durable.lift request.validate
  Durable.inspect (meetingDir request.meetingId)
  Directory.within request.meetingId (enqueueIn request)

/-- The look of `claim` at all other requests. -/
def noOtherClaim (id : Uuid) (meetings : Meetings B) : Except TranscriptionQueueError Unit := do
  let discovery ← discover meetings
  refuseIf (∃ item ∈ discovery.items, item.request.requestId ≠ id ∧ item.claim.isSome ∧ item.isOpen)
    .alreadyClaimed

/-- `TranscriptionQueue::claim`; `claimId` is the new claim's identifier. -/
def claim (id : Uuid) (workerRuntimeIdentity : String) (clock : UInt64) (claimId : Uuid) :
    Durable (Meetings B) TranscriptionQueueError TranscriptionQueueItem := do
  Durable.lift (refuseIf (workerRuntimeIdentity = "" ∨ workerRuntimeIdentity.utf8ByteSize > 256)
    (.malformed "worker identity"))
  Durable.inspect (noOtherClaim id)
  inLocated id fun name => claimIn name id workerRuntimeIdentity clock claimId

/-- `TranscriptionQueue::release_claim`. -/
def releaseClaim (id claimId : Uuid) (clock : UInt64) :
    Durable (Meetings B) TranscriptionQueueError TranscriptionQueueItem :=
  inLocated id fun name => releaseClaimIn name id claimId clock

/-- `TranscriptionQueue::admit_result`; `nonce` names the temporary file of the
transcript. -/
def admitResult [DecidableEq B] (id : Uuid) (transcriptBytes : B) (transcript : ArtifactRef)
    (clock : UInt64) (nonce : Uuid) :
    Durable (Meetings B) TranscriptionQueueError TranscriptionQueueItem := do
  Durable.lift (refuseIf (ByteString.size transcriptBytes = 0 ∨
    ByteString.size transcriptBytes > maxQueuedTranscriptBytes) (.malformed "transcript size"))
  inLocated id fun name => admitResultIn name id transcriptBytes transcript clock nonce

/-- `TranscriptionQueue::commit`. -/
def commit (id : Uuid) (clock : UInt64) :
    Durable (Meetings B) TranscriptionQueueError TranscriptionQueueItem :=
  inLocated id fun name => commitIn name id clock

/-- `TranscriptionQueue::fail`. -/
def fail (id : Uuid) (kind : TranscriptionTerminalKind) (clock : UInt64) :
    Durable (Meetings B) TranscriptionQueueError TranscriptionQueueItem :=
  inLocated id fun name => failIn name id kind clock

end TranscriptionQueue

end Queue

end YawnApp.SessionCore
