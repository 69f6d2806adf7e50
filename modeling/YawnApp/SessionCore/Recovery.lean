import YawnApp.SessionCore.Retention

set_option autoImplicit false

/-!
# Recovery of a meeting at startup (`recovery.rs`)

At startup every meeting directory is looked at once.  A captured meeting with a
finished capture is left for the transcription queue; one whose capture never
finished is salvaged into an interrupted meeting, with whatever audio there is
and a receipt that says so; an incomplete one is salvaged once none of the
processes that recorded it is left.  Everything else is handed to the audio
retention.  The other way round, an interrupted meeting whose recording turns
out to have finished is handed back to the transcription queue.
-/

namespace YawnApp.SessionCore

open YawnApp.Foundation

variable {B : Type}

/-! ## The processes of a capture (`supervision.rs`) -/

structure ProcessIdentity where
  pid : UInt32
  startTimeEpochSeconds : UInt64
  executablePath : String
  executableSha256 : String
deriving DecidableEq, Repr

structure OwnershipReceipt where
  processGroupId : UInt32
  applicationBuildSha256 : String
  workerBuildSha256 : String
  tapBuildSha256 : String
  children : List ProcessIdentity
deriving DecidableEq, Repr

def ProcessIdentity.fromValue (v : Value) : Option ProcessIdentity := do
  let fs ← closedFields ["pid", "start_time_epoch_seconds", "executable_path",
    "executable_sha256"] v
  return {
    pid := ← requiredField fs "pid"
    startTimeEpochSeconds := ← requiredField fs "start_time_epoch_seconds"
    executablePath := ← requiredField fs "executable_path"
    executableSha256 := ← requiredField fs "executable_sha256" }

/-- The reading of an `ownership.json`.  The group is a 32-bit signed number; a
negative one is read by the source and refused by `validate`, here it is not
read, which is answered in the same way. -/
def OwnershipReceipt.fromValue (v : Value) : Option OwnershipReceipt := do
  let fs ← closedFields ["schema", "process_group_id", "application_build_sha256",
    "worker_build_sha256", "tap_build_sha256", "children"] v
  let schema ← requiredField (α := String) fs "schema"
  guard (schema = "capture-ownership/1")
  let processGroupId ← requiredField (α := UInt32) fs "process_group_id"
  guard (processGroupId.toNat < 2 ^ 31)
  let children ← (← fieldOf fs "children").asArray
  return {
    processGroupId
    applicationBuildSha256 := ← requiredField fs "application_build_sha256"
    workerBuildSha256 := ← requiredField fs "worker_build_sha256"
    tapBuildSha256 := ← requiredField fs "tap_build_sha256"
    children := ← children.mapM ProcessIdentity.fromValue }

/-- `OwnershipReceipt::validate`. -/
def OwnershipReceipt.validate (receipt : OwnershipReceipt) : Bool :=
  decide (receipt.processGroupId > 0) && validSha256 receipt.applicationBuildSha256 &&
    validSha256 receipt.workerBuildSha256 && validSha256 receipt.tapBuildSha256 &&
    (receipt.children.any fun child => child.pid == receipt.processGroupId) &&
    (receipt.children.all fun child =>
      decide (child.pid > 0) && decide (child.startTimeEpochSeconds > 0) &&
        child.executablePath.toList.head? == some '/' && validSha256 child.executableSha256) &&
    decide (receipt.children.map ProcessIdentity.pid).Nodup

inductive RecoveryCompletion where
  | noChildrenLive
  | stoppedExactGroup
  | ambiguousIdentity
  | stillRunning
deriving DecidableEq, Repr

/-! ## What a scan reports -/

inductive RecoveryCode where
  | malformedMeeting
  | artifactMismatch
  | ownershipMalformed
  | retentionMismatch
deriving DecidableEq, Repr

inductive RecoveryDisposition where
  | valid
  | recoveredInterrupted
  | recoveredAudioDeletion
  /-- A finished capture that the transcription queue owns. -/
  | capturedAwaitingTranscription
  | quarantined (code : RecoveryCode)
  | ownershipAmbiguous
deriving DecidableEq, Repr

inductive RecoveryOneError where
  | unclassifiable (e : MeetingError)
  | meeting (e : MeetingError)
  | retention (e : RetentionError)
deriving DecidableEq, Repr

inductive OneMeeting where
  | disposition (d : RecoveryDisposition)
  | ownershipBlocked
  | ownershipMalformed
deriving DecidableEq, Repr

/-- What `scan_and_recover` reports of one meeting, and whether that keeps the
app from capturing. -/
def OneMeeting.report : Except RecoveryOneError OneMeeting → RecoveryDisposition × Bool
  | .ok (.disposition d) => (d, false)
  | .ok .ownershipBlocked => (.ownershipAmbiguous, true)
  | .ok .ownershipMalformed => (.quarantined .ownershipMalformed, true)
  | .error (.unclassifiable .artifactMismatch) => (.quarantined .artifactMismatch, true)
  | .error (.unclassifiable _) => (.quarantined .malformedMeeting, true)
  | .error (.meeting .artifactMismatch) => (.quarantined .artifactMismatch, false)
  | .error (.meeting _) => (.quarantined .malformedMeeting, false)
  | .error (.retention _) => (.quarantined .retentionMismatch, false)

/-! ## The capture receipt -/

namespace Recovery

def captureDir : MeetingPath := .entry ["capture"]

/-- `"capture/session.json"`. -/
def sessionRelative : String := "capture/session.json"

def sessionComponents : List String := ["capture", "session.json"]

def sessionPath : MeetingPath := .entry sessionComponents

section Reading

variable [Platform B]

/-- The fields `captured_capture_is_finalized` asks of a receipt. -/
def isFinalized (value : Value) : Bool :=
  (value.get "schema").bind Value.asStr == some "capture-session/2" &&
    (value.get "status").bind Value.asStr == some "complete" &&
    (value.get "started_at").any Value.isString && (value.get "finalized_at").any Value.isString &&
    (value.get "health").any Value.isObject && (value.get "reconciliation").any Value.isObject

/-- `captured_capture_is_finalized`, which never refuses: a receipt that cannot
be read is not that of a finished capture. -/
def capturedCaptureIsFinalized (read : Reader B) (meeting : MeetingRecord) : Bool :=
  match meeting.artifacts.captureSession with
  | none => false
  | some session =>
    match verifyArtifactRef read session, readBounded read session.relativePath maxReceiptBytes with
    | .ok (), .ok bytes => (valueFromSlice bytes).any isFinalized
    | _, _ => false

/-- `capture_health_is_usable`. -/
def captureHealthIsUsable (read : Reader B) (meeting : MeetingRecord) : Bool :=
  match meeting.artifacts.captureSession with
  | none => false
  | some session =>
    if isSafeArtifactPath session.relativePath then
      match readBounded read session.relativePath maxReceiptBytes with
      | .ok bytes =>
        ((valueFromSlice bytes).bind fun value => (value.get "health").bind fun health =>
          health.get "usable") == some (.bool true)
      | .error _ => false
    else false

/-- `receipt_is_stranded_completion`; any file is read, whatever its mode. -/
def receiptIsStrandedCompletion (tree : ArtifactTree B) : Bool :=
  match tree.node sessionPath with
  | some (.file _ bytes) =>
    ((valueFromSlice bytes).bind fun value => (value.get "schema").bind Value.asStr) ==
      some "capture-session/2"
  | _ => false

/-! ## What an interrupted capture left -/

structure InterruptedCaptureInventory where
  sessionPresent : Bool
  microphone : Option ArtifactRef
  system : Option ArtifactRef

/-- The names that `discover_interrupted_capture` recognizes. -/
def recognizedNames : List String :=
  ["session.json", "mic.wav", "system.wav", ".mic.wav.partial", ".system.wav.partial"]

/-- The checks of `discover_interrupted_capture` on the names it found. -/
def checkNames (names : List String) : Except MeetingError Unit := do
  refuseIf (¬ names ⊆ recognizedNames)
    (.malformed "capture directory has an unexpected artifact shape")
  let canonical := "mic.wav" ∈ names ∨ "system.wav" ∈ names
  let isPartial := ".mic.wav.partial" ∈ names ∨ ".system.wav.partial" ∈ names
  refuseIf (canonical ∧ isPartial) (.malformed "capture directory mixes final and partial WAV names")
  refuseIf (canonical ∧ ¬ ("mic.wav" ∈ names ∧ "system.wav" ∈ names))
    (.malformed "capture directory has an incomplete promoted WAV pair")
  refuseIf (¬ canonical ∧ ¬ isPartial ∧ "session.json" ∈ names)
    (.malformed "capture receipt exists without interrupted audio")

/-- The reference to one track, if either of its two names was found. -/
def trackRef (read : Reader B) (names : List String) (canonicalName canonicalPath partialName
    partialPath : String) : Except MeetingError (Option ArtifactRef) :=
  if canonicalName ∈ names then (artifactRef read canonicalPath).map some
  else if partialName ∈ names then (artifactRef read partialPath).map some
  else .ok none

/-- `discover_interrupted_capture`. -/
def discoverInterruptedCapture (m : MeetingDirectory B) :
    Except MeetingError InterruptedCaptureInventory :=
  if (m.tree.node captureDir).isNone then
    return { sessionPresent := false, microphone := none, system := none }
  else do
    requirePrivateDirectory m.tree captureDir
    let names := (m.tree.readDir captureDir).map fun found => found.1.parts.getLastD ""
    checkNames names
    return {
      sessionPresent := decide ("session.json" ∈ names)
      microphone := ← trackRef m.reader names "mic.wav" microphoneAudioPath
        ".mic.wav.partial" microphonePartialAudioPath
      system := ← trackRef m.reader names "system.wav" systemAudioPath
        ".system.wav.partial" systemPartialAudioPath }

end Reading

/-! ## The steps of a recovery -/

section Programs

variable [Platform B]

/-- What a recovery draws or leaves to the system: the names of its temporary
files, and what the queue directory holds after each removal in it. -/
structure Choices (B : Type) where
  receipt : Uuid
  retention : Retention.Choices
  leftovers : List (Directory Uuid (ItemDirectory B))

/-- `write_meeting`. -/
def writeMeeting (name : String) (meeting : MeetingRecord) :
    Durable (MeetingDirectory B) MeetingError Unit := do
  let bytes ← Durable.lift (meetingBytes meeting name)
  MeetingDirectory.replaceRecord bytes

/-- `fs::remove_file` of the capture receipt. -/
def removeSession : Durable (MeetingDirectory B) MeetingError Unit :=
  MeetingDirectory.inTree (Durable.mapError .io (Durable.step (Volume.removeFile sessionPath)))

/-- `write_capture_interruption_receipt`. -/
def writeCaptureInterruptionReceipt (nonce : Uuid) (meeting : MeetingRecord) :
    Durable (MeetingDirectory B) MeetingError ArtifactRef := do
  let artifacts ← Durable.inspect fun m => receiptArtifacts m.reader meeting true
  Durable.lift (refuseIf (artifacts = [] ∨ artifacts.any fun artifact => decide (artifact.bytes < 44))
    (.malformed "an interruption receipt requires readable WAV storage"))
  let receipt : CaptureInterruptionReceipt := {
    schema := .v1, status := .interrupted, reason := .freshProcessRecovery
    meetingId := meeting.meetingId, artifacts }
  MeetingDirectory.inTree (Durable.mapError .io
    (durableCreateNew sessionPath (.temporary sessionComponents nonce) (toVecPretty receipt)))
  Durable.inspect fun m => artifactRef m.reader sessionRelative

/-- The record of an interrupted meeting with the audio found, before its
capture receipt is settled. -/
def interruptedRecord (meeting : MeetingRecord) (inventory : InterruptedCaptureInventory) :
    MeetingRecord :=
  { meeting with
    lifecycle := .recoveredInterrupted
    retention := { meeting.retention with
      state := if inventory.microphone.isSome ∨ inventory.system.isSome then .retained
        else .neverCreated
      deletionReceipt := none }
    artifacts := { meeting.artifacts with
      microphoneAudio := inventory.microphone, systemAudio := inventory.system }
    pendingStorageOperation := none }

/-- Whether the receipt found is that of a complete capture whose files never
got their final names. -/
def discardsReceipt (tree : ArtifactTree B) (inventory : InterruptedCaptureInventory) : Bool :=
  inventory.sessionPresent &&
    (inventory.microphone.map ArtifactRef.relativePath == some microphonePartialAudioPath ||
      inventory.system.map ArtifactRef.relativePath == some systemPartialAudioPath) &&
    receiptIsStrandedCompletion tree

/-- The capture receipt of an interrupted meeting: the one found, or a new one. -/
def settleReceipt (nonce : Uuid) (meeting : MeetingRecord)
    (inventory : InterruptedCaptureInventory) :
    Durable (MeetingDirectory B) MeetingError (Option ArtifactRef) :=
  if meeting.retention.state = .retained then do
    let discards ← Durable.inspect fun m => .ok (discardsReceipt m.tree inventory)
    if inventory.sessionPresent = true ∧ discards = false then do
      let session ← Durable.inspect fun m => artifactRef m.reader sessionRelative
      pure (some session)
    else do
      if inventory.sessionPresent then removeSession else pure ()
      let session ← writeCaptureInterruptionReceipt nonce meeting
      pure (some session)
  else pure none

/-- `bind_interrupted_artifacts`; the answer is the record it leaves to be
written. -/
def bindInterruptedArtifacts (nonce : Uuid) (meeting : MeetingRecord) :
    Durable (MeetingDirectory B) MeetingError MeetingRecord := do
  let inventory ← Durable.inspect discoverInterruptedCapture
  let interrupted := interruptedRecord meeting inventory
  let captureSession ← settleReceipt nonce interrupted inventory
  let bound : MeetingRecord :=
    { interrupted with artifacts := { interrupted.artifacts with captureSession } }
  Durable.inspect fun m => verifyRecordStaticArtifacts m.reader bound
  pure bound

/-- `fs::remove_dir_all` of the queue directory. -/
def removeQueue (leftovers : List (Directory Uuid (ItemDirectory B))) :
    Durable (MeetingDirectory B) MeetingError Unit := do
  let _ ← Durable.forEach
    (fun queue => Durable.write fun m : MeetingDirectory B => { m with queue := some queue }) leftovers
  Durable.write fun m => { m with queue := none }

/-- `salvage_unfinalized_capture`. -/
def salvageUnfinalizedCapture (choices : Choices B) (name : String) (meeting : MeetingRecord) :
    Durable (MeetingDirectory B) MeetingError MeetingRecord := do
  if ← Durable.inspect fun m => .ok (m.tree.node sessionPath).isSome then removeSession else pure ()
  if ← Durable.inspect fun m => .ok m.queue.isSome then removeQueue choices.leftovers else pure ()
  let salvaged ← bindInterruptedArtifacts choices.receipt
    { meeting with artifacts := { meeting.artifacts with captureSession := none } }
  writeMeeting name salvaged
  pure salvaged

/-- `reconcile_meeting_retention` with every due deletion executed. -/
def reconcileRetention (choices : Choices B) (name : String) (meeting : MeetingRecord)
    (nowEpochSeconds : UInt64) :
    Durable (MeetingDirectory B) RecoveryOneError MeetingRetentionResult := do
  let (_, result) ← Durable.mapError .retention
    (Retention.reconcileMeetingRetention choices.retention name meeting nowEpochSeconds true)
  pure result

/-- `recover_captured`. -/
def recoverCaptured (choices : Choices B) (name : String) (meeting : MeetingRecord)
    (nowEpochSeconds : UInt64) : Durable (MeetingDirectory B) RecoveryOneError OneMeeting := do
  if ← Durable.inspect fun m => .ok (capturedCaptureIsFinalized m.reader meeting) then do
    Durable.inspect fun m => (verifyRecordArtifacts m.reader meeting).mapError .meeting
    pure (.disposition .capturedAwaitingTranscription)
  else do
    let salvaged ← Durable.mapError .meeting (salvageUnfinalizedCapture choices name meeting)
    let _ ← reconcileRetention choices name salvaged nowEpochSeconds
    pure (.disposition .recoveredInterrupted)

/-- The ownership receipt of an incomplete meeting, if it is well formed. -/
def ownershipReceipt (read : Reader B) (meeting : MeetingRecord) : Option OwnershipReceipt := do
  let reference ← meeting.artifacts.ownership
  guard ((verifyArtifactRef read reference).toOption.isSome)
  let bytes ← (readBounded read reference.relativePath maxReceiptBytes).toOption
  let receipt ← (JsonText.readText bytes).bind OwnershipReceipt.fromValue
  guard receipt.validate
  return receipt

/-- `recover_one` in the meeting directory `name`.  What
`recover_owned_group_and_wait` finds among the processes of a receipt, or that
it failed, is `completion`. -/
def recoverOne (choices : Choices B) (completion : OwnershipReceipt → Option RecoveryCompletion)
    (name : String) (nowEpochSeconds : UInt64) :
    Durable (MeetingDirectory B) RecoveryOneError OneMeeting := do
  Durable.inspect fun m => (requirePrivateDirectory m.tree (.entry [])).mapError .unclassifiable
  let meeting ← Durable.inspect fun m => (loadMeeting m.reader name).mapError .unclassifiable
  if meeting.lifecycle = .captured then recoverCaptured choices name meeting nowEpochSeconds
  else if meeting.lifecycle ≠ .incomplete then do
    let result ← reconcileRetention choices name meeting nowEpochSeconds
    pure (.disposition (if result = .notDue then .valid else .recoveredAudioDeletion))
  else do
    match ← Durable.inspect fun m => .ok (ownershipReceipt m.reader meeting) with
    | none => pure .ownershipMalformed
    | some receipt =>
      match completion receipt with
      | none => pure .ownershipBlocked
      | some .ambiguousIdentity => pure .ownershipBlocked
      | some .stillRunning => pure .ownershipBlocked
      | some .noChildrenLive => recoverStopped meeting
      | some .stoppedExactGroup => recoverStopped meeting
where
  /-- An incomplete meeting whose processes are gone. -/
  recoverStopped (meeting : MeetingRecord) :
      Durable (MeetingDirectory B) RecoveryOneError OneMeeting := do
    Durable.inspect fun m => (verifyRecordStaticArtifacts m.reader meeting).mapError .meeting
    Durable.inspect fun m => (Retention.preflightMeetingRetention m meeting).mapError .retention
    let bound ← Durable.mapError .meeting (bindInterruptedArtifacts choices.receipt meeting)
    Durable.mapError .meeting (writeMeeting name bound)
    let _ ← reconcileRetention choices name bound nowEpochSeconds
    pure (.disposition .recoveredInterrupted)

/-- `scan_and_recover` over the meeting directories; it reports of each what
became of it and says at the end whether one of them blocks capture.  The
choices and the processes may be others for each meeting. -/
def scanAndRecover (choices : String → Choices B)
    (completion : String → OwnershipReceipt → Option RecoveryCompletion) (nowEpochSeconds : UInt64) :
    Durable (Meetings B) MeetingError (List (String × RecoveryDisposition) × Bool) := do
  let names ← Durable.inspect fun meetings => .ok meetings.names
  let results ← Directory.sweep
    (fun name => recoverOne (choices name) (completion name) name nowEpochSeconds) names
  let reports := results.map fun found => (found.1, OneMeeting.report found.2)
  pure (reports.map fun report => (report.1, report.2.1), reports.any fun report => report.2.2)

end Programs

end Recovery

end YawnApp.SessionCore
