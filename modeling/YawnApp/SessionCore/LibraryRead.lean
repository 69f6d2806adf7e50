import YawnApp.Foundation.Budget
import YawnApp.SessionCore.LibraryMetadata
import YawnApp.SessionCore.MeetingDirectory
import YawnApp.SessionCore.Protocol

set_option autoImplicit false

/-!
# The library build (`library_read.rs`)

A rebuild inspects the directory of every meeting in the order of their names.
All reads of the build draw on one byte budget: a read that overdraws it refuses
the whole library, except that a read of an older revision of a restored
transcript only quarantines its meeting.  A meeting that cannot be read is
quarantined and the build goes on.

The search over the rows is not modelled here.  Times in a transcript are exact
rationals.  The projector of a note is another program and a parameter; the
identifier that labels one exchange with it is left out.
-/

namespace YawnApp.SessionCore

open YawnApp.Foundation

namespace LibraryRead

/-! ## Rows -/

structure ReadLimits where
  maxMeetings : Nat
  maxTotalBytes : Nat
  maxTranscriptBytes : Nat

inductive LibraryReadError where
  | capacityExceeded
  | snapshotStale
  | invalidRequest
  | artifactUnavailable
deriving DecidableEq, Repr

inductive MeetingInspectionError where
  | quarantine
  | capacityExceeded
  | unavailable
deriving DecidableEq, Repr

/-- `From<LibraryReadError>`. -/
def MeetingInspectionError.ofRead : LibraryReadError → MeetingInspectionError
  | .capacityExceeded => .capacityExceeded
  | .artifactUnavailable | .invalidRequest | .snapshotStale => .quarantine

structure StoredTurn where
  index : UInt32
  visibleIndex : Option Nat
  text : String
  gated : Bool
deriving DecidableEq

inductive ClaimType where
  | summary
  | decision
  | action
  | proposal
  | question
  | point
deriving DecidableEq, Repr

structure Locator where
  turn : Nat
  start : Nat
  stop : Nat
  textSha256 : String
deriving DecidableEq

structure ProjectedClaim where
  ordinal : Nat
  sha256 : String
  claimType : ClaimType
  text : String
  locators : List Locator
deriving DecidableEq

structure StoredLocator where
  projected : Locator
  sourceTurnIndex : UInt32
deriving DecidableEq

structure StoredClaim where
  ordinal : Nat
  sha256 : String
  claimType : ClaimType
  text : String
  locators : List StoredLocator
deriving DecidableEq

structure LibraryRow where
  meetingId : String
  createdAtEpochSeconds : UInt64
  transcriptSha256 : Option String
  lifecycle : MeetingLifecycle
  meetingRecordSha256 : String
  transcriptRelativePath : Option String
  turns : List StoredTurn
  noteJsonSha256 : Option String
  noteMarkdownSha256 : Option String
  claims : List StoredClaim
  savedNoteUnreadable : Bool
  attemptSha256 : String
  title : Option String
  folder : Option String
  folderId : Option String
deriving DecidableEq

structure ProjectRequest where
  meetingId : String
  noteJsonSha256 : String
  noteMarkdownSha256 : String
  transcriptSha256 : String

inductive ProjectionError where
  | artifactMissing
  | artifactInvalid
  | artifactChanged
  | capacityExceeded
  | unavailable
deriving DecidableEq, Repr

/-- The program that projects a note, with the check of its answer. -/
structure NoteProjector where
  admitted : Bool
  projectClaims : ProjectRequest → List String → Except ProjectionError (List ProjectedClaim)

inductive ClaimSource where
  | projector (projector : NoteProjector)
  | accepted (rows : List LibraryRow)

/-! ## Documents -/

/-- What is read of a capture attempt. -/
structure Attempt where
  schema : String
  meetingId : String
  attemptId : String
  createdAtEpochSeconds : UInt64
  applicationBuildSha256 : String
  participantNoticeVersion : String
  participantsConsented : Bool
  headphones : Bool
  operatorAlone : Bool
  retentionPolicySha256 : String

def Attempt.fromValue (v : Value) : Option Attempt := do
  let fs ← closedFields ["schema", "meeting_id", "attempt_id", "created_at_epoch_seconds",
    "application_build_sha256", "participant_notice_version", "operator_attestation",
    "retention_policy_sha256"] v
  let attestation ← (fieldOf fs "operator_attestation").bind
    (closedFields ["participantsConsented", "headphones", "operatorAlone"])
  return {
    schema := ← requiredField fs "schema"
    meetingId := ← requiredField fs "meeting_id"
    attemptId := ← requiredField fs "attempt_id"
    createdAtEpochSeconds := ← requiredField fs "created_at_epoch_seconds"
    applicationBuildSha256 := ← requiredField fs "application_build_sha256"
    participantNoticeVersion := ← requiredField fs "participant_notice_version"
    participantsConsented := ← requiredField attestation "participantsConsented"
    headphones := ← requiredField attestation "headphones"
    operatorAlone := ← requiredField attestation "operatorAlone"
    retentionPolicySha256 := ← requiredField fs "retention_policy_sha256" }

def noticeVersion : String := "internal-transcript-alpha/1"

/-- The checks of an attempt against the record of its meeting. -/
def checkAttempt (meeting : MeetingRecord) (attempt : Attempt) : Except MeetingInspectionError Unit :=
  refuseIf (attempt.schema ≠ "capture-attempt/1" ∨ attempt.meetingId ≠ meeting.meetingId ∨
    (Uuid.parseStr attempt.attemptId).isNone ∨ ¬ validSha256 attempt.applicationBuildSha256 ∨
    attempt.participantNoticeVersion ≠ noticeVersion ∨ ¬ attempt.participantsConsented ∨
    ¬ attempt.headphones ∨ ¬ attempt.operatorAlone ∨
    attempt.retentionPolicySha256 ≠ meeting.retention.policySha256) .quarantine

structure Turn where
  start : ℚ
  stop : ℚ
  speaker : Option String
  text : String
  gated : Option Bool
  gateScore : Option ℚ
  gateReason : Option String

/-- A number that may be missing or `null`. -/
def optionalNumber (fs : List (String × Value)) (name : String) : Option (Option ℚ) :=
  match fieldOf fs name with
  | none => some none
  | some .null => some none
  | some v => v.asNumber.map some

def Turn.fromValue (v : Value) : Option Turn := do
  let fs ← closedFields ["start", "end", "speaker", "text", "gated", "gate_score", "gate_reason"] v
  return {
    start := ← (fieldOf fs "start").bind Value.asNumber
    stop := ← (fieldOf fs "end").bind Value.asNumber
    speaker := ← optionalField fs "speaker"
    text := ← requiredField fs "text"
    gated := ← optionalField fs "gated"
    gateScore := ← optionalNumber fs "gate_score"
    gateReason := ← optionalField fs "gate_reason" }

structure Transcript where
  schema : String
  source : String
  attribution : String
  captureHealth : Value
  turns : List Turn

def Transcript.fromValue (v : Value) : Option Transcript := do
  let fs ← closedFields ["schema", "source", "attribution", "bleed", "voiceprint", "capture_health",
    "turns"] v
  let turns ← (fieldOf fs "turns").bind Value.asArray
  return {
    schema := ← requiredField fs "schema"
    source := ← requiredField fs "source"
    attribution := ← requiredField fs "attribution"
    captureHealth := ← fieldOf fs "capture_health"
    turns := ← turns.mapM Turn.fromValue }

def maxTurns : Nat := 20000

/-- The checks of one turn. -/
def checkTurn (attribution : String) (turn : Turn) : Except LibraryReadError Unit :=
  refuseIf (turn.start < 0 ∨ turn.stop < turn.start ∨ turn.text.utf8ByteSize > 100000 ∨
    (turn.speaker.any fun speaker => 256 < speaker.utf8ByteSize) ∨
    (attribution = "channel" ∧ turn.speaker.any fun speaker => speaker ∉ ["Me", "Them"]) ∨
    (attribution = "channel" ∧ turn.gated = some true ∧ turn.speaker ≠ some "Me") ∨
    ((turn.gateScore.isSome ∨ turn.gateReason.isSome) ∧ turn.gated ≠ some true))
    .artifactUnavailable

/-- The loop of `validate_transcript`, from the turn `index` on. -/
def validateTurns (attribution : String) (restored : List UInt32) :
    Nat → Nat → List Turn → Except LibraryReadError (List StoredTurn)
  | _, _, [] => .ok []
  | index, visibleIndex, turn :: rest => do
    checkTurn attribution turn
    let restoredHere : Bool := UInt32.ofNat index ∈ restored
    refuseIf (restoredHere ∧ turn.gated ≠ some true) .artifactUnavailable
    let gated : Bool := turn.gated = some true ∧ ¬ restoredHere
    let stored : StoredTurn := {
      index := UInt32.ofNat index
      visibleIndex := if gated then none else some visibleIndex
      text := turn.text
      gated }
    let later ← validateTurns attribution restored (index + 1)
      (if gated then visibleIndex else visibleIndex + 1) rest
    return stored :: later

/-- `validate_transcript`. -/
def validateTranscript (document : Transcript) (restored : List UInt32) :
    Except LibraryReadError (List StoredTurn) := do
  refuseIf (document.schema ≠ "capture-transcript/1" ∨ document.source = "" ∨
    document.attribution ∉ ["channel", "none"] ∨ ¬ document.captureHealth.isObject ∨
    document.turns.length > maxTurns) .artifactUnavailable
  validateTurns document.attribution restored 0 0 document.turns

/-! ## Reads -/

/-- A program that reads under the budget of a build. -/
abbrev Inspection (α : Type) : Type := Spending MeetingInspectionError α

/-- A check whose failure quarantines the meeting. -/
def orQuarantine {ε α : Type} (answer : Except ε α) : Inspection α :=
  .lift (answer.mapError fun _ => .quarantine)

section Reads

variable {B : Type} [Platform B]

/-- `open_private_file` of a path below a meeting directory. -/
def openFile (m : MeetingDirectory B) (path : String) : Except MeetingError B :=
  if path = "meeting.json" then orRefuse m.record (.io .notFound)
  else openPrivateFile m.tree (.entry (components path))

/-- `bounded_read`. -/
def boundedRead (m : MeetingDirectory B) (path : String) (maximum : Nat) :
    Spending LibraryReadError B :=
  match openFile m path with
  | .error _ => .lift (.error .artifactUnavailable)
  | .ok bytes =>
    if ByteString.size bytes > maximum then .lift (.error .capacityExceeded)
    else do
      Spending.charge (ByteString.size bytes) .capacityExceeded
      return bytes

/-- A read whose overdraft refuses the library. -/
def readFile (m : MeetingDirectory B) (path : String) (maximum : Nat) : Inspection B :=
  (boundedRead m path maximum).mapError .ofRead

/-- `account_reference`. -/
def accountReference (m : MeetingDirectory B) (limits : ReadLimits) (reference : ArtifactRef) :
    Inspection Unit := do
  let _ ← readFile m reference.relativePath limits.maxTotalBytes
  return ()

/-- `account_reference` for each of a list of references. -/
def accountReferences (m : MeetingDirectory B) (limits : ReadLimits) :
    List ArtifactRef → Inspection Unit
  | [] => pure ()
  | reference :: rest => do
    accountReference m limits reference
    accountReferences m limits rest

/-! ## The chain of a restored transcript -/

/-- What the reader of a chain keeps between two reads: the bytes of the head,
which are read already, and what is left of the allowance of the chain. -/
structure HopState (B : Type) where
  primed : Option B
  allowance : Nat

/-- The closure that `inspect_meeting` hands to the walker.  Whatever goes wrong
in it quarantines the meeting. -/
def readHop (m : MeetingDirectory B) (limits : ReadLimits) (head : String) (state : HopState B)
    (digest : String) : Inspection (B × HopState B) :=
  match if digest = head then state.primed else none with
  | some bytes => pure (bytes, { state with primed := none })
  | none =>
    if state.allowance = 0 then .lift (.error .quarantine)
    else do
      let hop ← (boundedRead m (revisionPath digest)
        (min limits.maxTranscriptBytes state.allowance)).mapError fun _ => .quarantine
      return (hop, { state with allowance := state.allowance - ByteString.size hop })

variable [DecidableEq B]

/-- The loop of `inspect_revision_chain` over such a reader. -/
def walkHops (m : MeetingDirectory B) (limits : ReadLimits) (head : String) (meetingId : Uuid) :
    Nat → String → List (String × TranscriptView) → Nat → HopState B → Inspection (WalkedChain B)
  | 0, _, _, _, _ => .lift (.error .quarantine)
  | remaining + 1, current, views, viewBytesTotal, state => do
    orQuarantine (refuseIf (current ∈ views.map Prod.fst) TranscriptArtifactError.cyclic)
    let (bytes, state) ← readHop m limits head state current
    match ← orQuarantine (readRevisionNode (fun _ => .ok bytes) meetingId current) with
    | (_, .inl view) => do
      orQuarantine (refuseIf
        (viewBytesTotal + ByteString.size bytes > maxTranscriptViewChainBytes)
        TranscriptArtifactError.tooDeep)
      walkHops m limits head meetingId remaining view.parentTranscriptSha256
        ((current, view) :: views) (viewBytesTotal + ByteString.size bytes) state
    | (_, .inr withheld) =>
      return { views := views.reverse, baseDigest := current, withheld, baseBytes := bytes }

/-- `resolve_stored_transcript_with`, as `inspect_meeting` calls it: the bytes of
the base and the turns that were restored. -/
def resolveChain (m : MeetingDirectory B) (limits : ReadLimits) (meetingId : Uuid) (head : String)
    (bytes : B) : Inspection (B × List UInt32) := do
  orQuarantine (validateRevisionDigest head)
  let chain ← walkHops m limits head meetingId maxTranscriptViewDepth head [] 0
    ⟨some bytes, limits.maxTranscriptBytes * 2⟩
  let restored ← orQuarantine (checkSuccessors chain.baseDigest chain.withheld chain.views.reverse
    chain.baseDigest [])
  return (chain.baseBytes, restored)

/-! ## One meeting -/

/-- `load_meeting`. -/
def loadRecord (name : String) (m : MeetingDirectory B) : Except MeetingError MeetingRecord := do
  requirePrivateDirectory m.tree (.entry [])
  loadMeeting m.reader name

/-- The artifacts that are read for their size only. -/
def accountedReferences (meeting : MeetingRecord) : List ArtifactRef :=
  [meeting.artifacts.ownership, meeting.artifacts.captureSession,
    meeting.artifacts.currentNote.map NoteRevisionRef.json,
    meeting.artifacts.currentNote.map NoteRevisionRef.markdown].filterMap id

/-- The receipt of an audio deletion is verified and read. -/
def accountDeletionReceipt (m : MeetingDirectory B) (limits : ReadLimits)
    (meeting : MeetingRecord) : Inspection Unit :=
  match meeting.retention.deletionReceipt with
  | some receipt => do
    orQuarantine (verifyArtifactRef m.reader receipt)
    accountReference m limits receipt
  | none => pure ()

/-- `inspect_meeting` up to the attempt: the record and what it points to. -/
def inspectRecord (limits : ReadLimits) (name : String) (m : MeetingDirectory B) :
    Inspection MeetingRecord := do
  let _ ← readFile m "meeting.json" maxMeetingRecordBytes
  let meeting ← orQuarantine (loadRecord name m)
  orQuarantine (verifyRecordStaticArtifacts m.reader meeting)
  accountDeletionReceipt m limits meeting
  accountReferences m limits (accountedReferences meeting)
  return meeting

/-- The attempt of a meeting, whose reference was computed just before. -/
def inspectAttempt (m : MeetingDirectory B) (meeting : MeetingRecord) (reference : ArtifactRef) :
    Inspection Attempt := do
  .lift (refuseIf (reference ≠ meeting.artifacts.attempt) .quarantine)
  let bytes ← readFile m "attempt.json" maxReceiptBytes
  let attempt ← .lift (orRefuse ((valueFromSlice bytes).bind Attempt.fromValue) .quarantine)
  .lift (checkAttempt meeting attempt)
  return attempt

/-- Whether the bytes are those of a restored view. -/
def isView (bytes : B) : Bool :=
  ((valueFromSlice bytes).bind fun document =>
    (document.get "schema").bind Value.asStr) == some "transcript-view/1"

/-- The current transcript, if the lifecycle has one, with its turns. -/
structure InspectedTranscript where
  current : Option ArtifactRef
  turns : List StoredTurn

/-- The lifecycles whose transcript is read. -/
def readsTranscript (lifecycle : MeetingLifecycle) : Bool :=
  match lifecycle with
  | .transcriptReady | .summaryFailed | .ready => true
  | _ => false

/-- The bytes of the base and the turns that were restored. -/
def resolveTranscript (m : MeetingDirectory B) (limits : ReadLimits) (meeting : MeetingRecord)
    (current : ArtifactRef) (bytes : B) : Inspection (B × List UInt32) :=
  if isView bytes then do
    let meetingId ← .lift (orRefuse (Uuid.parseStr meeting.meetingId) .quarantine)
    resolveChain m limits meetingId current.sha256 bytes
  else do
    .lift (refuseIf (Platform.sha256 bytes ≠ current.sha256) .quarantine)
    return (bytes, [])

def inspectTranscript (m : MeetingDirectory B) (limits : ReadLimits) (meeting : MeetingRecord) :
    Inspection InspectedTranscript :=
  if readsTranscript meeting.lifecycle then do
    let current ← .lift (orRefuse meeting.artifacts.currentTranscript .quarantine)
    let actual ← orQuarantine (artifactRef m.reader current.relativePath)
    .lift (refuseIf (actual ≠ current) .quarantine)
    let bytes ← readFile m current.relativePath limits.maxTranscriptBytes
    let (baseBytes, restored) ← resolveTranscript m limits meeting current bytes
    let document ← .lift (orRefuse ((valueFromSlice baseBytes).bind Transcript.fromValue) .quarantine)
    let turns ← .lift ((validateTranscript document restored).mapError .ofRead)
    return { current := some current, turns }
  else return { current := none, turns := [] }

/-! ### Notes -/

def MeetingInspectionError.ofProjection : ProjectionError → MeetingInspectionError
  | .artifactMissing | .artifactInvalid | .artifactChanged => .quarantine
  | .capacityExceeded => .capacityExceeded
  | .unavailable => .unavailable

/-- A locator points to a turn that is visible. -/
def storeLocator (turns : List StoredTurn) (projected : Locator) :
    Except MeetingInspectionError StoredLocator := do
  let turn ← orRefuse (turns.find? fun turn => turn.visibleIndex = some projected.turn) .unavailable
  return { projected, sourceTurnIndex := turn.index }

def storeClaim (turns : List StoredTurn) (claim : ProjectedClaim) :
    Except MeetingInspectionError StoredClaim := do
  let locators ← claim.locators.mapM (storeLocator turns)
  return {
    ordinal := claim.ordinal
    sha256 := claim.sha256
    claimType := claim.claimType
    text := claim.text
    locators }

/-- The claims of a note and whether it is listed as unreadable: no projector is
admitted then. -/
def claimsOf (source : ClaimSource) (request : ProjectRequest) (turns : List StoredTurn) :
    Except MeetingInspectionError (List StoredClaim × Bool) :=
  match source with
  | .accepted rows =>
    orRefuse ((rows.find? fun row => row.meetingId = request.meetingId ∧
      row.noteJsonSha256 = some request.noteJsonSha256 ∧
      row.noteMarkdownSha256 = some request.noteMarkdownSha256 ∧
      row.transcriptSha256 = some request.transcriptSha256).map fun row =>
        (row.claims, row.savedNoteUnreadable)) .unavailable
  | .projector projector =>
    if projector.admitted then do
      let visible := (turns.filter fun turn => !turn.gated).map StoredTurn.text
      let claims ← (projector.projectClaims request visible).mapError .ofProjection
      let claims ← claims.mapM (storeClaim turns)
      return (claims, false)
    else return ([], true)

structure InspectedNote where
  jsonSha256 : Option String
  markdownSha256 : Option String
  claims : List StoredClaim
  unreadable : Bool

def inspectNote (source : ClaimSource) (meeting : MeetingRecord) (transcript : InspectedTranscript) :
    Except MeetingInspectionError InspectedNote :=
  if meeting.lifecycle = .ready then do
    let note ← orRefuse meeting.artifacts.currentNote .quarantine
    let current ← orRefuse transcript.current .quarantine
    let (claims, unreadable) ← claimsOf source {
      meetingId := meeting.meetingId
      noteJsonSha256 := note.json.sha256
      noteMarkdownSha256 := note.markdown.sha256
      transcriptSha256 := current.sha256 } transcript.turns
    return {
      jsonSha256 := some note.json.sha256
      markdownSha256 := some note.markdown.sha256
      claims
      unreadable }
  else return { jsonSha256 := none, markdownSha256 := none, claims := [], unreadable := false }

/-! ### The row -/

/-- An artifact is still the one that was referred to. -/
def unchanged (m : MeetingDirectory B) (reference : ArtifactRef) : Bool :=
  match artifactRef m.reader reference.relativePath with
  | .ok again => again = reference
  | .error _ => false

/-- The pointers are read again after the inspection. -/
def checkAgain (name : String) (m : MeetingDirectory B) (meeting : MeetingRecord)
    (record attempt : ArtifactRef) (current : Option ArtifactRef) :
    Except MeetingInspectionError Unit := do
  let again ← (loadRecord name m).mapError fun _ => .quarantine
  refuseIf (again ≠ meeting ∨ ¬ unchanged m record ∨ ¬ unchanged m attempt ∨
    ¬ current.all (unchanged m) ∨
    ¬ meeting.artifacts.currentNote.all fun note =>
      unchanged m note.json && unchanged m note.markdown) .quarantine

/-- `inspect_meeting`.  It has no path that answers without a row. -/
def inspectMeeting (limits : ReadLimits) (source : ClaimSource) (name : String)
    (m : MeetingDirectory B) : Inspection LibraryRow := do
  let meeting ← inspectRecord limits name m
  let record ← orQuarantine (artifactRef m.reader "meeting.json")
  let reference ← orQuarantine (artifactRef m.reader "attempt.json")
  let attempt ← inspectAttempt m meeting reference
  let transcript ← inspectTranscript m limits meeting
  let note ← .lift (inspectNote source meeting transcript)
  .lift (checkAgain name m meeting record reference transcript.current)
  return {
    meetingId := meeting.meetingId
    createdAtEpochSeconds := attempt.createdAtEpochSeconds
    transcriptSha256 := transcript.current.map ArtifactRef.sha256
    lifecycle := meeting.lifecycle
    meetingRecordSha256 := record.sha256
    transcriptRelativePath := transcript.current.map ArtifactRef.relativePath
    turns := transcript.turns
    noteJsonSha256 := note.jsonSha256
    noteMarkdownSha256 := note.markdownSha256
    claims := note.claims
    savedNoteUnreadable := note.unreadable
    attemptSha256 := reference.sha256
    title := none
    folder := none
    folderId := none }

end Reads

/-! ## The build -/

section Build

variable {B : Type} [Platform B] [DecidableEq B] [ComposingNormalizer]

/-- The storage a build reads.  A `meetings/` that is missing is refused like one
that is not private. -/
structure LibraryStorage (B : Type) where
  meetings : Meetings B
  /-- What else lies under `meetings/`, by name. -/
  others : List String
  /-- The volume of the library's metadata. -/
  library : Volume LibraryPlace B

structure LibraryProjection where
  rows : List LibraryRow
  quarantinedMeetings : Nat
  metadata : MetadataState

/-- The meetings of a build in the order of their names. -/
def listedMeetings (storage : LibraryStorage B) (excluded : Finset String) :
    List (String × MeetingDirectory B) :=
  (storage.meetings.entries.filter fun entry =>
    validOpaqueId entry.1 && decide (entry.1 ∉ excluded)).insertionSort fun left right =>
      left.1 ≤ right.1

/-- What the build does with one inspection: a row, no row for a meeting in
quarantine, or the end of the build. -/
def verdict : Except MeetingInspectionError LibraryRow → Except LibraryReadError (Option LibraryRow)
  | .ok row => .ok (some row)
  | .error .quarantine => .ok none
  | .error .capacityExceeded => .error .capacityExceeded
  | .error .unavailable => .error .artifactUnavailable

/-- The inspection of an entry of `meetings/`. -/
def inspectEntry (limits : ReadLimits) (source : ClaimSource)
    (entry : String × MeetingDirectory B) : Inspection LibraryRow :=
  inspectMeeting limits source entry.1 entry.2

/-- The loop over the meetings, with `total` bytes spent before it. -/
def inspectAll (limits : ReadLimits) (source : ClaimSource)
    (directories : List (String × MeetingDirectory B)) (total : Nat) :
    Except LibraryReadError (List (Option LibraryRow)) :=
  Spending.runEach (inspectEntry limits source) verdict limits.maxTotalBytes directories total

/-- `meeting_order`: the newest meeting first. -/
def meetingOrder (left right : LibraryRow) : Prop :=
  right.createdAtEpochSeconds < left.createdAtEpochSeconds ∨
    (right.createdAtEpochSeconds = left.createdAtEpochSeconds ∧ left.meetingId ≤ right.meetingId)

instance : DecidableRel meetingOrder := fun left right => by
  unfold meetingOrder
  infer_instance

/-- Whether the document governs the rows: each of its rows is about a meeting
that is excluded, gone or in the library. -/
def MetadataDocument.governs (document : MetadataDocument) (storage : LibraryStorage B)
    (excluded : Finset String) (rows : List LibraryRow) : Bool :=
  document.meetings.all fun label =>
    decide (label.meetingId ∈ excluded) ||
      (decide (label.meetingId ∉ storage.meetings.names) &&
        decide (label.meetingId ∉ storage.others)) ||
      rows.any fun row => row.meetingId == label.meetingId

/-- A row with the labels the document has for it. -/
def MetadataDocument.label (document : MetadataDocument) (row : LibraryRow) : LibraryRow :=
  match document.meetings.find? fun label => label.meetingId = row.meetingId with
  | none => row
  | some label => { row with
      title := label.title
      folder := label.folderId.bind fun id =>
        (document.folders.find? fun folder => folder.id = id).map Folder.name
      folderId := label.folderId }

/-- The rows with their labels, if the metadata has authority over them. -/
def labelled (storage : LibraryStorage B) (excluded : Finset String) (rows : List LibraryRow)
    (quarantinedMeetings : Nat) : LibraryProjection :=
  match readLibraryMetadata storage.library with
  | .valid document =>
    if MetadataDocument.governs document storage excluded rows then
      { rows := rows.map (MetadataDocument.label document), quarantinedMeetings,
        metadata := .valid document }
    else { rows, quarantinedMeetings, metadata := .unavailable }
  | metadata => { rows, quarantinedMeetings, metadata }

/-- `rebuild_with_claim_source_excluding`. -/
def rebuild (storage : LibraryStorage B) (limits : ReadLimits) (source : ClaimSource)
    (excluded : Finset String) : Except LibraryReadError LibraryProjection := do
  refuseIf (limits.maxMeetings = 0 ∨ limits.maxTotalBytes = 0 ∨ limits.maxTranscriptBytes = 0)
    .capacityExceeded
  refuseIf (storage.meetings.isPrivate = false) .artifactUnavailable
  let directories := listedMeetings storage excluded
  refuseIf (directories.length > limits.maxMeetings) .capacityExceeded
  let verdicts ← inspectAll limits source directories 0
  return labelled storage excluded ((verdicts.filterMap id).insertionSort meetingOrder)
    (verdicts.filter Option.isNone).length

end Build

end LibraryRead

end YawnApp.SessionCore
