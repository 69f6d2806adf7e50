/-
  Desktop/LibraryReader.lean --- the handles of the library (`library_reader.rs`).

  The reader answers every call from one projection.  What a response lets its
  caller do next it names by handles, which are drawn at random and kept in
  seven maps; the hits they stand for lie in the store of the projection.
-/
import YawnApp.Desktop.MeetingLock
import YawnApp.Foundation.Tickets
import YawnApp.SessionCore.LibraryHits

set_option autoImplicit false

namespace YawnApp.Desktop

open YawnApp.Foundation YawnApp.SessionCore YawnApp.SessionCore.LibraryRead
open MeetingLocks (MeetingLock permits)

namespace LibraryReader

/-! ## The library -/

inductive RetainedAudioSource where
  | microphone
  | system
deriving DecidableEq, Repr

/-- The state of `LibraryAudioRetention`. -/
inductive AudioRetention where
  | retained
  | released
  | deleting
  | notRecorded
  | unavailable
deriving DecidableEq, Repr

/-- A library that does not change: the projection of a reader, and what the storage says of
each meeting whenever it is read. -/
structure Library where
  projection : HeldProjection
  excludedMeetingIds : Finset String
  /-- The active set that every call is given. -/
  activeMeetingIds : Finset String
  rebuilds : Rebuilds
  meetingLock : String → MeetingLock
  /-- `read_audio_retention` -/
  audioRetention : String → AudioRetention
  /-- `retained_audio_artifact` -/
  retainedAudioArtifact : String → RetainedAudioSource → Option ArtifactRef
  /-- Whether the file of an artifact opens and has its digest. -/
  audioVerifies : String → ArtifactRef → Bool
  operatorNoteUnreadable : String → Bool
  /-- `transcript_deletion_completed`, unless it fails. -/
  transcriptDeletionCompleted : String → Option Bool
  /-- `meeting_transcript_pending` of the queue. -/
  queuePending : String → Bool
  interruptedCaptureIsTranscribable : String → Bool
  /-- Whether the trash lists a meeting. -/
  trashed : String → Bool
  /-- The handles in the order in which they are drawn. -/
  uuid : Nat → String

/-! ## The reader -/

/-- What a handle is for.  A handle of `handles` is a source handle: it opens a row, a
passage or a claim. -/
inductive Capability where
  | source
  | operatorNote
  | audioDeletion
  | audioPlayback
  | transcriptDeletion
  | meetingDeletion
  | interruptedTranscription
deriving DecidableEq, Repr

structure RetainedAudioPlaybackHandle where
  hit : LibraryHit
  source : RetainedAudioSource
  artifact : ArtifactRef

/-- What the map of a capability holds for a handle. -/
@[reducible] def Capability.Held : Capability → Type
  | .audioPlayback => RetainedAudioPlaybackHandle
  | _ => LibraryHit

def Capability.hit : (capability : Capability) → capability.Held → LibraryHit
  | .source, held => held
  | .operatorNote, held => held
  | .audioDeletion, held => held
  | .audioPlayback, held => RetainedAudioPlaybackHandle.hit held
  | .transcriptDeletion, held => held
  | .meetingDeletion, held => held
  | .interruptedTranscription, held => held

abbrev HandleMap (α : Type) : Type := String → Option α

end LibraryReader

open LibraryReader

/-- `LibraryReader`, with the store of its projection and the number of handles it has drawn. -/
structure LibraryReader where
  hits : Retained
  handles : HandleMap LibraryHit
  operatorNoteHandles : HandleMap LibraryHit
  audioDeletionHandles : HandleMap LibraryHit
  audioPlaybackHandles : HandleMap RetainedAudioPlaybackHandle
  transcriptDeletionHandles : HandleMap LibraryHit
  meetingDeletionHandles : HandleMap LibraryHit
  interruptedTranscriptionHandles : HandleMap LibraryHit
  minted : Nat

namespace LibraryReader

/-- `new_excluding` -/
def new : LibraryReader where
  hits := fun _ => none
  handles := fun _ => none
  operatorNoteHandles := fun _ => none
  audioDeletionHandles := fun _ => none
  audioPlaybackHandles := fun _ => none
  transcriptDeletionHandles := fun _ => none
  meetingDeletionHandles := fun _ => none
  interruptedTranscriptionHandles := fun _ => none
  minted := 0

/-- `clear_non_note_handles` -/
def clearNonNoteHandles (reader : LibraryReader) : LibraryReader :=
  { reader with
    handles := fun _ => none
    audioDeletionHandles := fun _ => none
    audioPlaybackHandles := fun _ => none
    transcriptDeletionHandles := fun _ => none
    meetingDeletionHandles := fun _ => none
    interruptedTranscriptionHandles := fun _ => none }

/-- `clear_handles` -/
def clearHandles (reader : LibraryReader) : LibraryReader :=
  { reader.clearNonNoteHandles with operatorNoteHandles := fun _ => none }

/-- `handles.clear()` -/
def clearSourceHandles (reader : LibraryReader) : LibraryReader :=
  { reader with handles := fun _ => none }

/-- `handles.remove` -/
def removeSourceHandle (reader : LibraryReader) (handle : String) : LibraryReader :=
  { reader with handles := Function.update reader.handles handle none }

/-- `operator_note_handles.remove` -/
def removeOperatorNoteHandle (reader : LibraryReader) (handle : String) : LibraryReader :=
  { reader with operatorNoteHandles := Function.update reader.operatorNoteHandles handle none }

/-- The map of a capability. -/
def held (reader : LibraryReader) : (capability : Capability) → HandleMap capability.Held
  | .source => reader.handles
  | .operatorNote => reader.operatorNoteHandles
  | .audioDeletion => reader.audioDeletionHandles
  | .audioPlayback => reader.audioPlaybackHandles
  | .transcriptDeletion => reader.transcriptDeletionHandles
  | .meetingDeletion => reader.meetingDeletionHandles
  | .interruptedTranscription => reader.interruptedTranscriptionHandles

/-- A handle that was just drawn is put in the map of its capability. -/
def insert (reader : LibraryReader) (handle : String) : (capability : Capability) →
    capability.Held → LibraryReader
  | .source, hit =>
    { reader with
      minted := reader.minted + 1
      handles := Function.update reader.handles handle (some hit) }
  | .operatorNote, hit =>
    { reader with
      minted := reader.minted + 1
      operatorNoteHandles := Function.update reader.operatorNoteHandles handle (some hit) }
  | .audioDeletion, hit =>
    { reader with
      minted := reader.minted + 1
      audioDeletionHandles := Function.update reader.audioDeletionHandles handle (some hit) }
  | .audioPlayback, playback =>
    { reader with
      minted := reader.minted + 1
      audioPlaybackHandles := Function.update reader.audioPlaybackHandles handle (some playback) }
  | .transcriptDeletion, hit =>
    { reader with
      minted := reader.minted + 1
      transcriptDeletionHandles :=
        Function.update reader.transcriptDeletionHandles handle (some hit) }
  | .meetingDeletion, hit =>
    { reader with
      minted := reader.minted + 1
      meetingDeletionHandles := Function.update reader.meetingDeletionHandles handle (some hit) }
  | .interruptedTranscription, hit =>
    { reader with
      minted := reader.minted + 1
      interruptedTranscriptionHandles :=
        Function.update reader.interruptedTranscriptionHandles handle (some hit) }

/-! ## Responses -/

/-- A handle in a response, with what it is for and the meeting it stands for. -/
structure Minted where
  capability : Capability
  handle : String
  meetingId : String
deriving DecidableEq, Repr

/-- The part of a response that is about handles. -/
structure Response where
  state : String
  /-- The meeting that the call goes on with once its handle has opened.  A playback does not
  show it. -/
  meetingId : Option String
  minted : List Minted

/-- A response without a meeting. -/
def refused (state : String) : Response := ⟨state, none, []⟩

/-- A response about a meeting that hands nothing out. -/
def answered (state meetingId : String) : Response := ⟨state, some meetingId, []⟩

/-- The handle in a field of a response that may be empty. -/
def handed (capability : Capability) (meetingId : String) (handle : Option String) : List Minted :=
  handle.toList.map fun handle => ⟨capability, handle, meetingId⟩

end LibraryReader

namespace LibraryReader.Library

variable (lib : Library)

/-! ## Minting -/

/-- `meeting_handle` -/
def meetingHandle (reader : LibraryReader) (meetingId : String) :
    Except LibraryReadError LibraryHit × LibraryReader :=
  let answer := lib.projection.meetingHandle reader.hits meetingId
  (answer.1, { reader with hits := answer.2 })

/-- A handle is drawn for what it stands for. -/
def mint (reader : LibraryReader) (capability : Capability) (held : capability.Held) :
    String × LibraryReader :=
  let handle := lib.uuid reader.minted
  (handle, reader.insert handle capability held)

/-- `retain_handle` -/
def retainHandle (reader : LibraryReader) (hit : LibraryHit) : String × LibraryReader :=
  lib.mint reader .source hit

/-- What the functions that mint a handle for a meeting have in common: one for the hit of
`meeting_handle`, if the meeting is offered it. -/
def retainFor (capability : Capability) (offered : Bool) (make : LibraryHit → Option capability.Held)
    (reader : LibraryReader) (meetingId : String) : Option String × LibraryReader :=
  if offered then
    match lib.meetingHandle reader meetingId with
    | (.error _, reader) => (none, reader)
    | (.ok hit, reader) =>
      match make hit with
      | none => (none, reader)
      | some held =>
        let minted := lib.mint reader capability held
        (some minted.1, minted.2)
  else (none, reader)

def meetingHasTranscript (meetingId : String) : Bool :=
  lib.projection.rows.any fun row => row.meetingId == meetingId && row.transcriptSha256.isSome

/-- `retain_transcript_handle` -/
def retainTranscriptHandle (reader : LibraryReader) (meetingId : String) :
    Option String × LibraryReader :=
  lib.retainFor .source (lib.meetingHasTranscript meetingId) some reader meetingId

/-- `retain_operator_note_handle` -/
def retainOperatorNoteHandle (reader : LibraryReader) (meetingId : String) :
    Option String × LibraryReader :=
  lib.retainFor .operatorNote true some reader meetingId

/-- `retain_audio_deletion_handle` -/
def retainAudioDeletionHandle (reader : LibraryReader) (meetingId : String) (retained : Bool) :
    Option String × LibraryReader :=
  lib.retainFor .audioDeletion retained some reader meetingId

/-- `retain_transcript_deletion_handle` -/
def retainTranscriptDeletionHandle (reader : LibraryReader) (meetingId : String) :
    Option String × LibraryReader :=
  lib.retainFor .transcriptDeletion (lib.meetingHasTranscript meetingId) some reader meetingId

/-- `retain_interrupted_transcription_handle` -/
def retainInterruptedTranscriptionHandle (reader : LibraryReader) (meetingId : String) :
    Option String × LibraryReader :=
  lib.retainFor .interruptedTranscription (lib.interruptedCaptureIsTranscribable meetingId) some
    reader meetingId

/-- `retain_meeting_deletion_handle` -/
def retainMeetingDeletionHandle (reader : LibraryReader) (meetingId : String) :
    Option String × LibraryReader :=
  lib.retainFor .meetingDeletion true some reader meetingId

/-- Whether the library is still as the projection has it. -/
def isCurrent : Bool :=
  decide (lib.activeMeetingIds = lib.excludedMeetingIds) &&
    (lib.projection.validateSnapshotExcluding lib.rebuilds lib.activeMeetingIds).isOk

/-- `revalidate` -/
def revalidate (reader : LibraryReader) : Bool × LibraryReader :=
  if lib.isCurrent then (true, reader) else (false, reader.clearHandles)

/-- `retain_audio_playback_handle` -/
def retainAudioPlaybackHandle (reader : LibraryReader) (meetingId : String)
    (source : RetainedAudioSource) : Option String × LibraryReader :=
  match lib.revalidate reader with
  | (false, reader) => (none, reader)
  | (true, reader) =>
    lib.retainFor .audioPlayback (decide (meetingId ∉ lib.activeMeetingIds))
      (fun hit => (lib.retainedAudioArtifact meetingId source).map fun artifact =>
        { hit, source, artifact }) reader meetingId

/-- The calls that look at the storage first. -/
def current (reader : LibraryReader) (stale : Response)
    (call : LibraryReader → Response × LibraryReader) : Response × LibraryReader :=
  match lib.revalidate reader with
  | (false, reader) => (stale, reader)
  | (true, reader) => call reader

/-! ## Snapshots and searches -/

variable [Unicode]

def openSnapshot (reader : LibraryReader) (hit : LibraryHit) :
    Except LibraryReadError OpenedLibraryHit :=
  lib.projection.openSnapshot reader.hits hit

def noteClaims (reader : LibraryReader) (meetingId : String) :
    Except LibraryReadError (List LibraryHit) × LibraryReader :=
  let answer := lib.projection.noteClaims reader.hits meetingId
  (answer.1, { reader with hits := answer.2 })

/-- What the preview of a row leaves: `note_preview_for` reads the claims of the meeting, and the
row of a locked meeting has none. -/
def readPreview (reader : LibraryReader) (row : LibraryRow) : LibraryReader :=
  if (lib.meetingLock row.meetingId).locked then reader else (lib.noteClaims reader row.meetingId).2

/-- The handles of the rows, unless one of them is not listed. -/
def retainRows : List LibraryRow → LibraryReader → Option (List Minted) × LibraryReader
  | [], reader => (some [], reader)
  | row :: rest, reader =>
    match lib.meetingHandle reader row.meetingId with
    | (.error _, reader) => (none, reader)
    | (.ok hit, reader) =>
      let minted := lib.retainHandle reader hit
      let later := retainRows rest minted.2
      (later.1.map fun handles => ⟨.source, minted.1, row.meetingId⟩ :: handles, later.2)

/-- `snapshot_current` -/
def snapshotCurrent (filter : LibraryFilter) (reader : LibraryReader) : Response × LibraryReader :=
  let reader := reader.clearHandles
  let unavailable := lib.projection.quarantinedMeetings
  let filtered := lib.projection.filteredRows filter
  if filtered.isEmpty then (refused (if unavailable = 0 then "empty" else "incomplete"), reader)
  else
    -- every preview is read before the first handle is minted
    match lib.retainRows filtered (filtered.foldl lib.readPreview reader) with
    | (none, reader) => (refused "unavailable", reader)
    | (some handles, reader) =>
      (⟨if unavailable = 0 then "populated" else "populated-incomplete", none, handles⟩, reader)

/-- `locked_meeting_ids` -/
def isLocked (meetingId : String) : Bool :=
  lib.projection.rows.any fun row => row.meetingId == meetingId && (lib.meetingLock meetingId).locked

/-- The handles of the results, unless one of them does not open. -/
def retainResults : List LibraryHit → LibraryReader → Option (List Minted) × LibraryReader
  | [], reader => (some [], reader)
  | hit :: rest, reader =>
    match lib.openSnapshot reader hit with
    | .error _ => (none, reader)
    | .ok opened =>
      let minted := lib.retainHandle reader hit
      let later := retainResults rest minted.2
      (later.1.map fun handles => ⟨.source, minted.1, opened.meetingId⟩ :: handles, later.2)

/-- `search_current` -/
def searchCurrent (query : String) (filter : LibraryFilter) (reader : LibraryReader) :
    Response × LibraryReader :=
  let reader := reader.clearHandles
  let unavailable := lib.projection.quarantinedMeetings
  let answer := lib.projection.searchFilteredExcluding reader.hits query filter lib.isLocked
  let reader := { reader with hits := answer.2 }
  match answer.1 with
  | .error .invalidRequest => (refused "invalid", reader)
  | .error _ => (refused "stale", reader)
  | .ok found =>
    if found.hits.isEmpty then
      (refused (if unavailable = 0 then "no-results" else "incomplete"), reader)
    else
      match lib.retainResults found.hits reader with
      | (none, reader) => (refused "stale", reader)
      | (some handles, reader) =>
        (⟨if unavailable = 0 then "results" else "results-incomplete", none, handles⟩, reader)

/-- `retain_search_open` -/
def retainSearchOpen (hit : LibraryHit) (state meetingId : String) (reader : LibraryReader) :
    Response × LibraryReader :=
  let minted := lib.retainHandle reader.clearHandles hit
  (⟨state, some meetingId, [⟨.source, minted.1, meetingId⟩]⟩, minted.2)

/-- `open_search_result_current` -/
def openSearchResultCurrent (handle : String) (reader : LibraryReader) : Response × LibraryReader :=
  match reader.handles handle with
  | none => (refused "stale", reader.clearHandles)
  | some hit =>
    let reader := reader.clearHandles
    match lib.openSnapshot reader hit with
    | .ok (.transcript meetingId ..) =>
      if (lib.meetingLock meetingId).locked then (refused "stale", reader)
      else lib.retainSearchOpen hit "transcript" meetingId reader
    | .ok (.meeting meetingId ..) =>
      if (lib.meetingLock meetingId).locked then (refused "stale", reader)
      else if lib.meetingHasTranscript meetingId then
        lib.retainSearchOpen hit "meeting" meetingId reader
      else (answered "metadata-only" meetingId, reader)
    | .ok (.withheld meetingId _) =>
      if (lib.meetingLock meetingId).locked then (refused "stale", reader)
      else lib.retainSearchOpen hit "withheld" meetingId reader
    | .ok (.claim ..) => (refused "stale", reader)
    | .error _ => (refused "stale", reader)

/-! ## The detail view -/

/-- `transcript_pending` -/
def transcriptPending (meetingId : String) (lifecycle : MeetingLifecycle) : Bool :=
  decide (lifecycle = .captured) && lib.transcriptDeletionCompleted meetingId == some false &&
    lib.queuePending meetingId

/-- The handles that the view of a meeting has whatever its lifecycle. -/
def retainControls (reader : LibraryReader) (meetingId : String) : List Minted × LibraryReader :=
  let retained := lib.audioRetention meetingId == .retained
  let note := if lib.operatorNoteUnreadable meetingId then (none, reader)
    else lib.retainOperatorNoteHandle reader meetingId
  let deletion := lib.retainAudioDeletionHandle note.2 meetingId retained
  let microphone := if retained then lib.retainAudioPlaybackHandle deletion.2 meetingId .microphone
    else (none, deletion.2)
  let system := if retained then lib.retainAudioPlaybackHandle microphone.2 meetingId .system
    else (none, microphone.2)
  let transcript := lib.retainTranscriptDeletionHandle system.2 meetingId
  let meeting := lib.retainMeetingDeletionHandle transcript.2 meetingId
  (handed .operatorNote meetingId note.1 ++ handed .audioDeletion meetingId deletion.1 ++
    handed .audioPlayback meetingId microphone.1 ++ handed .audioPlayback meetingId system.1 ++
    handed .transcriptDeletion meetingId transcript.1 ++ handed .meetingDeletion meetingId meeting.1,
    meeting.2)

/-- The handles of the claims of a note, unless one of them does not open. -/
def retainNoteClaims (meetingId : String) :
    List LibraryHit → LibraryReader → Option (List Minted) × LibraryReader
  | [], reader => (some [], reader)
  | hit :: rest, reader =>
    let minted := lib.retainHandle reader hit
    match lib.openSnapshot minted.2 hit with
    | .ok (.claim ..) =>
      let later := retainNoteClaims meetingId rest minted.2
      (later.1.map fun handles => ⟨.source, minted.1, meetingId⟩ :: handles, later.2)
    | _ => (none, minted.2)

/-- The response for a meeting whose transcript is what there is to read. -/
def transcriptView (state : String) (controls : List Minted) (meetingId : String)
    (reader : LibraryReader) : Response × LibraryReader :=
  let transcript := lib.retainTranscriptHandle reader meetingId
  (⟨state, some meetingId, handed .source meetingId transcript.1 ++ controls⟩, transcript.2)

/-- The response for a meeting with a note. -/
def noteView (controls : List Minted) (meetingId : String) (reader : LibraryReader) :
    Response × LibraryReader :=
  match lib.noteClaims reader meetingId with
  | (.error _, reader) => (answered "stale" meetingId, reader)
  | (.ok hits, reader) =>
    match lib.retainNoteClaims meetingId hits reader with
    | (none, reader) => (answered "stale" meetingId, reader)
    | (some claims, reader) => lib.transcriptView "note" (controls ++ claims) meetingId reader

/-- The view of a meeting that may be read. -/
def meetingView (meetingId : String) (reader : LibraryReader) : Response × LibraryReader :=
  match lib.projection.row? meetingId with
  | none => (answered "stale" meetingId, reader)
  | some row =>
    let controls := lib.retainControls reader meetingId
    match row.lifecycle with
    | .summaryFailed => lib.transcriptView "summary-failed" controls.1 meetingId controls.2
    | .recoveredInterrupted =>
      let interrupted := lib.retainInterruptedTranscriptionHandle controls.2 meetingId
      (⟨"recovered-interrupted", some meetingId,
        controls.1 ++ handed .interruptedTranscription meetingId interrupted.1⟩, interrupted.2)
    | .ready =>
      if row.savedNoteUnreadable then
        lib.transcriptView "saved-note-unreadable" controls.1 meetingId controls.2
      else lib.noteView controls.1 meetingId controls.2
    | lifecycle =>
      if lib.transcriptPending meetingId lifecycle then
        (⟨"transcribing", some meetingId, controls.1⟩, controls.2)
      else lib.transcriptView "transcript-only" controls.1 meetingId controls.2

/-- `open_note_current` -/
def openNoteCurrent (handle : String) (unlockedMeetingId : Option String) (reader : LibraryReader) :
    Response × LibraryReader :=
  match reader.handles handle with
  | none => (refused "stale", reader.clearHandles)
  | some hit =>
    let reader := reader.clearHandles
    match lib.openSnapshot reader hit with
    | .ok (.meeting meetingId ..) =>
      if permits (lib.meetingLock meetingId) unlockedMeetingId meetingId then
        lib.meetingView meetingId reader
      else
        let deletion := lib.retainMeetingDeletionHandle reader meetingId
        (⟨"locked", some meetingId, handed .meetingDeletion meetingId deletion.1⟩, deletion.2)
    | _ => (refused "stale", reader)

/-! ## Sources -/

/-- `open_evidence_current` -/
def openEvidenceCurrent (handle : String) (locatorOrdinal : Nat) (reader : LibraryReader) :
    Response × LibraryReader :=
  match reader.handles handle with
  | none => (refused "stale", reader.clearHandles)
  | some hit =>
    let reader := (reader.removeSourceHandle handle).clearSourceHandles
    match lib.projection.openClaimEvidenceExcluding reader.hits lib.rebuilds hit locatorOrdinal
        lib.activeMeetingIds with
    | .error _ => (refused "stale", reader)
    | .ok evidence =>
      let transcript := lib.retainTranscriptHandle reader evidence.meetingId
      (⟨"evidence", some evidence.meetingId, handed .source evidence.meetingId transcript.1⟩,
        transcript.2)

/-- `open_transcript_current`, up to the callback that reads the file. -/
def openTranscriptCurrent (handle : String) (reader : LibraryReader) : Response × LibraryReader :=
  match reader.handles handle with
  | none => (refused "stale", reader.clearHandles)
  | some hit =>
    let reader := (reader.removeSourceHandle handle).clearSourceHandles
    match lib.openSnapshot reader hit with
    | .ok (.transcript meetingId _ _ _ _ _) | .ok (.meeting meetingId _ _ (some _)) =>
      if meetingId ∈ lib.activeMeetingIds then (refused "stale", reader)
      else (answered "transcript" meetingId, reader)
    | .ok (.withheld ..) => (refused "withheld", reader)
    | .ok (.meeting _ _ _ none) | .ok (.claim ..) | .error _ => (refused "stale", reader)

/-- `open_operator_note_bound`, up to the callback that saves the note. -/
def openOperatorNoteCurrent (handle : String) (reader : LibraryReader) : Response × LibraryReader :=
  match reader.operatorNoteHandles handle with
  | none => (refused "stale", reader.clearHandles)
  | some hit =>
    let reader := reader.removeOperatorNoteHandle handle
    match lib.openSnapshot reader hit with
    | .ok (.meeting meetingId ..) =>
      if meetingId ∈ lib.activeMeetingIds then (refused "stale", reader)
      else (answered "saved" meetingId, reader)
    | _ => (refused "stale", reader)

/-! ## Exports -/

/-- Whether the evidence of every claim can be read. -/
def readClaims (reader : LibraryReader) : List LibraryHit → Bool
  | [] => true
  | hit :: rest =>
    match lib.openSnapshot reader hit with
    | .ok (.claim _ _ _ _ _ locators _ _ _) =>
      ((List.range locators.length).all fun ordinal =>
        (lib.projection.openClaimEvidenceExcluding reader.hits lib.rebuilds hit ordinal
          lib.excludedMeetingIds).isOk) && readClaims reader rest
    | _ => false

/-- `export_claims`: whether the claims of a meeting can be read, and the store that this leaves. -/
def exportClaims (meetingId : String) (reader : LibraryReader) : Bool × LibraryReader :=
  match lib.projection.row? meetingId with
  | none => (false, reader)
  | some row =>
    if row.lifecycle = .ready then
      match lib.noteClaims reader meetingId with
      | (.error _, reader) => (false, reader)
      | (.ok hits, reader) => (lib.readClaims reader hits, reader)
    else (true, reader)

/-- The part of `open_export_bound` that is about the meeting. -/
def exportMeeting (meetingId : String) (reader : LibraryReader) : Response × LibraryReader :=
  if meetingId ∈ lib.activeMeetingIds then (refused "stale", reader)
  else
    match lib.projection.row? meetingId with
    | none => (refused "stale", reader)
    | some _ =>
      match lib.exportClaims meetingId reader with
      | (false, reader) => (refused "stale", reader)
      | (true, reader) => (answered "exported" meetingId, reader)

/-- `open_export_bound`, up to the callback that writes the archive. -/
def openExportCurrent (handle : String) (reader : LibraryReader) : Response × LibraryReader :=
  match reader.handles handle with
  | none => (refused "stale", reader.clearHandles)
  | some hit =>
    let reader := (reader.removeSourceHandle handle).clearSourceHandles
    match lib.openSnapshot reader hit with
    | .ok (.meeting meetingId ..) | .ok (.transcript meetingId ..) =>
      lib.exportMeeting meetingId reader
    | _ => (refused "stale", reader)

/-! ## Reviewed actions -/

/-- What the authorizations have in common: the handle is read, every handle is cleared, and the
meeting behind it is answered for. -/
def authorize (map : LibraryReader → HandleMap LibraryHit) (answer : String → Response)
    (handle : String) (reader : LibraryReader) : Response × LibraryReader :=
  let hit := map reader handle
  let reader := reader.clearHandles
  match hit with
  | none => (refused "stale", reader)
  | some hit =>
    match lib.openSnapshot reader hit with
    | .ok (.meeting meetingId ..) => (answer meetingId, reader)
    | _ => (refused "stale", reader)

/-- `authorize_meeting_deletion` -/
def authorizeMeetingDeletion : String → LibraryReader → Response × LibraryReader :=
  lib.authorize LibraryReader.meetingDeletionHandles (answered "authorized")

/-- `authorize_transcript_deletion` -/
def authorizeTranscriptDeletion : String → LibraryReader → Response × LibraryReader :=
  lib.authorize LibraryReader.transcriptDeletionHandles fun meetingId =>
    if lib.meetingHasTranscript meetingId then answered "authorized" meetingId
    else if (lib.transcriptDeletionCompleted meetingId).getD false then
      answered "already-removed" meetingId
    else answered "no-transcript" meetingId

/-- `authorize_audio_deletion_current` -/
def authorizeAudioDeletion : String → LibraryReader → Response × LibraryReader :=
  lib.authorize LibraryReader.audioDeletionHandles fun meetingId =>
    match lib.audioRetention meetingId with
    | .retained => answered "authorized" meetingId
    | .released => answered "already-released" meetingId
    | .deleting => answered "deleting" meetingId
    | .notRecorded => answered "not-recorded" meetingId
    | .unavailable => refused "unavailable"

/-- `authorize_interrupted_transcription` -/
def authorizeInterruptedTranscription : String → LibraryReader → Response × LibraryReader :=
  lib.authorize LibraryReader.interruptedTranscriptionHandles fun meetingId =>
    if lib.interruptedCaptureIsTranscribable meetingId then answered "authorized" meetingId
    else refused "stale"

/-- The part of `authorize_audio_playback` that is about the meeting. -/
def playMeeting (playback : RetainedAudioPlaybackHandle) (unlockedMeetingId : Option String)
    (meetingId : String) : Response :=
  if meetingId ∈ lib.activeMeetingIds then refused "stale"
  else if !permits (lib.meetingLock meetingId) unlockedMeetingId meetingId then
    answered "locked" meetingId
  else
    match lib.retainedAudioArtifact meetingId playback.source with
    | none => answered "unavailable" meetingId
    | some artifact =>
      if artifact ≠ playback.artifact then refused "stale"
      else if lib.audioVerifies meetingId artifact then answered "granted" meetingId
      else answered "unavailable" meetingId

/-- `authorize_audio_playback` -/
def authorizeAudioPlayback (unlockedMeetingId : Option String) (handle : String)
    (reader : LibraryReader) : Response × LibraryReader :=
  let playback := reader.audioPlaybackHandles handle
  let reader := reader.clearNonNoteHandles
  match playback with
  | none => (refused "stale", reader)
  | some playback =>
    match lib.openSnapshot reader playback.hit with
    | .ok (.meeting meetingId ..) => (lib.playMeeting playback unlockedMeetingId meetingId, reader)
    | _ => (refused "stale", reader)

/-- `with_locked_meeting`: a handle that names a meeting is read and not spent. -/
def withLockedMeeting (handle : String) (reader : LibraryReader) : Response × LibraryReader :=
  match reader.handles handle with
  | none => (refused "stale", reader)
  | some hit =>
    match lib.openSnapshot reader hit with
    | .ok (.meeting meetingId ..) =>
      (answered (if (lib.meetingLock meetingId).locked then "locked" else "unlocked") meetingId,
        reader)
    | _ => (refused "stale", reader)

end LibraryReader.Library

namespace LibraryReader

/-! ## Calls -/

inductive Call where
  | snapshot (filter : LibraryFilter)
  | search (query : String) (filter : LibraryFilter)
  | openSearchResult (handle : String)
  | openNote (handle : String) (unlockedMeetingId : Option String)
  | openEvidence (handle : String) (locatorOrdinal : Nat)
  | openTranscript (handle : String)
  | openOperatorNote (handle : String)
  | openExport (handle : String)
  | authorizeAudioPlayback (handle : String) (unlockedMeetingId : Option String)
  | authorizeAudioDeletion (handle : String)
  | authorizeTranscriptDeletion (handle : String)
  | authorizeMeetingDeletion (handle : String)
  | authorizeInterruptedTranscription (handle : String)
  | withLockedMeeting (handle : String)
  | retentionIdentities
  | authorizeTrashRestore (meetingId : String)
  | retainTranscriptHandle (meetingId : String)
  | retainOperatorNoteHandle (meetingId : String)
  | retainAudioPlaybackHandle (meetingId : String) (source : RetainedAudioSource)
deriving DecidableEq

/-- The handle that a call is given, with the map it is looked up in. -/
def Call.presents : Call → Option (Capability × String)
  | .openSearchResult handle | .openNote handle _ | .openEvidence handle _ | .openTranscript handle
  | .openExport handle | .withLockedMeeting handle => some (.source, handle)
  | .openOperatorNote handle => some (.operatorNote, handle)
  | .authorizeAudioPlayback handle _ => some (.audioPlayback, handle)
  | .authorizeAudioDeletion handle => some (.audioDeletion, handle)
  | .authorizeTranscriptDeletion handle => some (.transcriptDeletion, handle)
  | .authorizeMeetingDeletion handle => some (.meetingDeletion, handle)
  | .authorizeInterruptedTranscription handle => some (.interruptedTranscription, handle)
  | .snapshot _ | .search _ _ | .retentionIdentities | .authorizeTrashRestore _
  | .retainTranscriptHandle _ | .retainOperatorNoteHandle _ | .retainAudioPlaybackHandle _ _ => none

/-- Whether a call only looks: at the lock of a meeting, or at what the library holds. -/
def Call.looks : Call → Bool
  | .withLockedMeeting _ | .retentionIdentities | .authorizeTrashRestore _ => true
  | _ => false

/-- A handle that was asked for by a meeting's identifier. -/
def asked (capability : Capability) (meetingId : String)
    (answer : Option String × LibraryReader) : Response × LibraryReader :=
  (⟨"minted", none, handed capability meetingId answer.1⟩, answer.2)

namespace Library

variable [Unicode] (lib : Library)

def step (reader : LibraryReader) : Call → Response × LibraryReader
  | .snapshot filter => lib.current reader (refused "stale") (lib.snapshotCurrent filter)
  | .search query filter => lib.current reader (refused "stale") (lib.searchCurrent query filter)
  | .openSearchResult handle =>
    lib.current reader (refused "stale") (lib.openSearchResultCurrent handle)
  | .openNote handle unlockedMeetingId =>
    lib.current reader (refused "stale") (lib.openNoteCurrent handle unlockedMeetingId)
  | .openEvidence handle locatorOrdinal =>
    lib.current reader (refused "stale") (lib.openEvidenceCurrent handle locatorOrdinal)
  | .openTranscript handle => lib.current reader (refused "stale") (lib.openTranscriptCurrent handle)
  | .openOperatorNote handle =>
    lib.current reader (refused "stale") (lib.openOperatorNoteCurrent handle)
  | .openExport handle => lib.current reader (refused "stale") (lib.openExportCurrent handle)
  | .authorizeAudioPlayback handle unlockedMeetingId =>
    lib.current reader (refused "stale") (lib.authorizeAudioPlayback unlockedMeetingId handle)
  | .authorizeAudioDeletion handle =>
    lib.current reader (refused "stale") (lib.authorizeAudioDeletion handle)
  | .authorizeTranscriptDeletion handle =>
    lib.current reader (refused "stale") (lib.authorizeTranscriptDeletion handle)
  | .authorizeMeetingDeletion handle =>
    lib.current reader (refused "stale") (lib.authorizeMeetingDeletion handle)
  | .authorizeInterruptedTranscription handle =>
    lib.current reader (refused "stale") (lib.authorizeInterruptedTranscription handle)
  | .withLockedMeeting handle => lib.withLockedMeeting handle reader
  | .retentionIdentities =>
    lib.current reader (refused "stale") fun reader => (refused "identities", reader)
  | .authorizeTrashRestore meetingId =>
    (refused (if lib.trashed meetingId then "authorized" else "not-found"), reader)
  | .retainTranscriptHandle meetingId =>
    asked .source meetingId (lib.retainTranscriptHandle reader meetingId)
  | .retainOperatorNoteHandle meetingId =>
    asked .operatorNote meetingId (lib.retainOperatorNoteHandle reader meetingId)
  | .retainAudioPlaybackHandle meetingId source =>
    asked .audioPlayback meetingId (lib.retainAudioPlaybackHandle reader meetingId source)

/-- The reader after some calls. -/
def run (calls : List Call) : LibraryReader :=
  calls.foldl (fun reader call => (lib.step reader call).2) .new

end Library

end LibraryReader

end YawnApp.Desktop
