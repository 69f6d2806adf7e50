import YawnApp.SessionCore.Recorded
import YawnApp.SessionCore.Recovery

set_option autoImplicit false

/-!
# Handing an interrupted meeting back to transcription (`recovery.rs`)

A meeting can be recovered as interrupted although its recording finished: the
capture task failed after the worker had written the receipt of a finished
capture.  `transcribe_finished_interrupted_capture` makes such a meeting
captured again and changes nothing else of it.  The next scan asks a predicate
of its own before it leaves a captured meeting to the queue, so the two have to
agree, or the meeting is salvaged back.
-/

namespace YawnApp.SessionCore

open YawnApp.Foundation Durable

variable {B : Type}

inductive InterruptedTranscriptionError where
  | noSuchMeeting
  | notInterrupted
  | recordingNotFinished
  | audioNotRetained
  | pendingStorageOperation
  | transcriptionAlreadyRequested
  | meeting (e : MeetingError)
  | coordination (e : MeetingCoordinationError)
deriving DecidableEq, Repr

inductive InterruptedTranscriptionOutcome where
  | handedToQueue
  | deferredActive
deriving DecidableEq, Repr

namespace Recovery

/-! ## The operation -/

section Programs

variable [Platform B]

/-- Whether both tracks have their final names. -/
def canonicalAudio (meeting : MeetingRecord) : Bool :=
  (meeting.artifacts.microphoneAudio.any fun audio => audio.relativePath == microphoneAudioPath) &&
    meeting.artifacts.systemAudio.any fun audio => audio.relativePath == systemAudioPath

/-- `check_transcribable_interrupted_capture`. -/
def checkTranscribableInterruptedCapture (m : MeetingDirectory B) (meeting : MeetingRecord)
    (verifyAudio : Bool) : Except InterruptedTranscriptionError Unit := do
  refuseIf (meeting.lifecycle ≠ .recoveredInterrupted ∨
    meeting.artifacts.currentTranscript.isSome ∨ meeting.artifacts.currentNote.isSome)
    .notInterrupted
  refuseIf meeting.pendingStorageOperation.isSome .pendingStorageOperation
  refuseIf (meeting.retention.state ≠ .retained) .audioNotRetained
  refuseIf (meeting.artifacts.ownership.isNone ∨ ¬ canonicalAudio meeting ∨
    ¬ capturedCaptureIsFinalized m.reader meeting ∨ ¬ captureHealthIsUsable m.reader meeting)
    .recordingNotFinished
  refuseIf m.queue.isSome .transcriptionAlreadyRequested
  if verifyAudio then (verifyRecordArtifacts m.reader meeting).mapError .meeting else pure ()

/-- The record of a meeting that is handed back. -/
def handedBackRecord (meeting : MeetingRecord) : MeetingRecord := { meeting with lifecycle := .captured }

/-- `transcribe_finished_interrupted_capture` in the meeting directory. -/
def handBackIn (name : String) :
    Durable (MeetingDirectory B) InterruptedTranscriptionError InterruptedTranscriptionOutcome := do
  Durable.inspect fun m => (requirePrivateDirectory m.tree (.entry [])).mapError .meeting
  let meeting ← Durable.inspect fun m => (loadMeeting m.reader name).mapError .meeting
  Durable.lift (refuseIf (meeting.meetingId ≠ name)
    (.meeting (.malformed "meeting identifier mismatch")))
  Durable.inspect fun m => checkTranscribableInterruptedCapture m meeting true
  Durable.mapError .meeting (writeMeeting name (handedBackRecord meeting))
  pure .handedToQueue

/-- `transcribe_finished_interrupted_capture`; `lease` is what the coordination
answers when the meeting and the sequence are locked. -/
def transcribeFinishedInterruptedCapture (lease : Except MeetingCoordinationError Unit)
    (meetingId : String) :
    Durable (Meetings B) InterruptedTranscriptionError InterruptedTranscriptionOutcome := do
  Durable.lift (refuseIf (¬ validOpaqueId meetingId)
    (.meeting (.malformed "meeting identifier mismatch")))
  match lease with
  | .error .alreadyActive => pure .deferredActive
  | .error .unavailable => Durable.fail (.coordination .unavailable)
  | .ok () => do
    Durable.inspect fun meetings => refuseIf (meetings.entry meetingId).isNone .noSuchMeeting
    Directory.within meetingId (handBackIn meetingId)

end Programs

/-! ## The record handed back -/

section Record

variable [Platform B] {meeting : MeetingRecord}

theorem canonicalAudio_eq_true :
    canonicalAudio meeting = true ↔ ∃ mic system, meeting.artifacts.microphoneAudio = some mic ∧
      mic.relativePath = microphoneAudioPath ∧ meeting.artifacts.systemAudio = some system ∧
      system.relativePath = systemAudioPath := by
  unfold canonicalAudio
  cases meeting.artifacts.microphoneAudio <;> cases meeting.artifacts.systemAudio <;> simp

/-- A track under its final name passes the check of a meeting that is not an
interrupted one. -/
theorem validateAudioRef_canonical {reference : ArtifactRef} {canonicalPath partialPath : String}
    {allow : Bool} (h : validateAudioRef reference canonicalPath partialPath allow = .ok ())
    (hpath : reference.relativePath = canonicalPath) :
    validateAudioRef reference canonicalPath partialPath false = .ok () := by
  unfold validateAudioRef at h ⊢
  rw [check_bind_eq_ok] at h ⊢
  exact ⟨refuseIf_of_not (not_not_intro (.inl hpath)), h.2⟩

/-- What the hand-back asks of a record. -/
structure Transcribable (meeting : MeetingRecord) : Prop where
  lifecycle : meeting.lifecycle = .recoveredInterrupted
  transcript : meeting.artifacts.currentTranscript = none
  note : meeting.artifacts.currentNote = none
  pending : meeting.pendingStorageOperation = none
  retained : meeting.retention.state = .retained
  ownership : meeting.artifacts.ownership.isSome
  audio : canonicalAudio meeting = true
  session : meeting.artifacts.captureSession.isSome

/-- A valid record that meets it is valid as a captured one. -/
theorem Transcribable.valid {name : String} (h : Transcribable meeting)
    (hvalid : meeting.Valid B name) : (handedBackRecord meeting).Valid B name := by
  obtain ⟨mic, system, hmic, hmicPath, hsystem, hsystemPath⟩ := canonicalAudio_eq_true.mp h.audio
  refine ⟨hvalid.identity, hvalid.retentionRule, ?_, ?_, hvalid.audioState, ?_, ?_⟩
  · have hreferences := hvalid.references
    unfold MeetingRecord.validateReferences at hreferences ⊢
    simp only [check_bind_eq_ok, hmic, hsystem, checkSome_some] at hreferences
    simp only [check_bind_eq_ok, handedBackRecord, hmic, hsystem, checkSome_some]
    obtain ⟨hattempt, hownership, hsession, hmicRef, hsystemRef, htranscript, hnote⟩ := hreferences
    exact ⟨hattempt, hownership, hsession, validateAudioRef_canonical hmicRef hmicPath,
      validateAudioRef_canonical hsystemRef hsystemPath, htranscript, hnote⟩
  · apply refuseIf_of_not
    intro hrefused
    simp [handedBackRecord, MeetingArtifacts.completeCapture, hmic, hsystem, h.session,
      h.transcript, h.note, Option.isSome_iff_ne_none.mp h.ownership] at hrefused
  · apply refuseIf_of_not
    intro hrefused
    simp [handedBackRecord, h.pending] at hrefused
  · simp [MeetingRecord.validateUnfinished, handedBackRecord, refuseIf_of_not, pure, Except.pure]

/-- A finished capture has a receipt. -/
theorem isSome_of_capturedCaptureIsFinalized {read : Reader B}
    (h : capturedCaptureIsFinalized read meeting = true) :
    meeting.artifacts.captureSession.isSome := by
  unfold capturedCaptureIsFinalized at h
  cases hsession : meeting.artifacts.captureSession with
  | none => simp [hsession] at h
  | some => rfl

theorem checkTranscribable_eq_ok {m : MeetingDirectory B} :
    checkTranscribableInterruptedCapture m meeting true = .ok () ↔
      Transcribable meeting ∧ capturedCaptureIsFinalized m.reader meeting = true ∧
        captureHealthIsUsable m.reader meeting = true ∧ m.queue = none ∧
        verifyRecordArtifacts m.reader meeting = .ok () := by
  unfold checkTranscribableInterruptedCapture
  simp only [check_bind_eq_ok, refuseIf_eq_ok, not_or, not_not, if_true, mapError_eq_ok,
    Option.not_isSome_iff_eq_none, Option.isNone_iff_eq_none, ← Option.isSome_iff_ne_none]
  constructor
  · rintro ⟨⟨hlifecycle, htranscript, hnote⟩, hpending, hretained,
      ⟨hownership, haudio, hfinalized, hhealth⟩, hqueue, hverified⟩
    exact ⟨⟨hlifecycle, htranscript, hnote, hpending, hretained, hownership, haudio,
      isSome_of_capturedCaptureIsFinalized hfinalized⟩, hfinalized, hhealth, hqueue, hverified⟩
  · rintro ⟨h, hfinalized, hhealth, hqueue, hverified⟩
    exact ⟨⟨h.lifecycle, h.transcript, h.note⟩, h.pending, h.retained,
      ⟨h.ownership, h.audio, hfinalized, hhealth⟩, hqueue, hverified⟩

/-! ## What the next scan asks -/

/-- The receipt of a finished capture is read again after the record was
replaced. -/
theorem capturedCaptureIsFinalized_of_keeps {old new : Reader B} {name : String}
    (hvalid : meeting.Valid B name) (hkeeps : old.KeepsArtifacts new)
    (h : capturedCaptureIsFinalized old meeting = true) :
    capturedCaptureIsFinalized new meeting = true := by
  unfold capturedCaptureIsFinalized at h ⊢
  cases hsession : meeting.artifacts.captureSession with
  | none => simp [hsession] at h
  | some session =>
    simp only [hsession] at h ⊢
    have hpath : session.relativePath ≠ "meeting.json" := by
      apply hvalid.path_ne session
      simp [MeetingRecord.references, hsession]
    split at h
    · rename_i bytes hverified hbytes
      have hverified' := verifyArtifactRef_of_keeps hkeeps hpath hverified
      have hbytes' : readBounded new session.relativePath maxReceiptBytes = .ok bytes := by
        unfold readBounded at hbytes ⊢
        simp only [bind_eq_ok] at hbytes ⊢
        obtain ⟨found, hfound, hsize⟩ := hbytes
        exact ⟨found, hkeeps _ hpath _ hfound, hsize⟩
      rw [hverified', hbytes']
      exact h
    · cases h

/-- The artifacts of an interrupted record are those of the captured one, which
asks nothing more of them. -/
theorem verifyRecordArtifacts_handedBack {read : Reader B}
    (hlifecycle : meeting.lifecycle = .recoveredInterrupted)
    (h : verifyRecordArtifacts read meeting = .ok ()) :
    verifyRecordArtifacts read (handedBackRecord meeting) = .ok () := by
  unfold verifyRecordArtifacts verifyRecordStaticArtifacts at h ⊢
  simp only [hlifecycle, if_true, check_bind_eq_ok] at h
  simp only [handedBackRecord, check_bind_eq_ok, reduceCtorEq, if_false]
  obtain ⟨⟨hattempt, hownership, hsession, -, htranscript, hnote⟩, hrest⟩ := h
  exact ⟨⟨hattempt, hownership, hsession, htranscript, hnote⟩, hrest⟩

end Record

/-! ## Two operations, one condition -/

section Refinement

variable [Platform B] {m : MeetingDirectory B} {meeting : MeetingRecord} {name : String}
  {meetings : Meetings B}

/-- A finished capture is left to the queue. -/
theorem recoverOne_of_finished {choices : Choices B}
    {completion : OwnershipReceipt → Option RecoveryCompletion} {now : UInt64}
    (hprivate : requirePrivateDirectory m.tree (.entry []) = .ok ())
    (hmeeting : loadMeeting m.reader name = .ok meeting)
    (hlifecycle : meeting.lifecycle = .captured)
    (hfinalized : capturedCaptureIsFinalized m.reader meeting = true)
    (hverified : verifyRecordArtifacts m.reader meeting = .ok ()) :
    (recoverOne choices completion name now).exec m =
      ⟨[], .ok (.disposition .capturedAwaitingTranscription)⟩ := by
  unfold recoverOne
  rw [bind_inspect_of_ok _ (by rw [hprivate]; rfl),
    bind_inspect_of_ok _ (by rw [hmeeting]; rfl), if_pos hlifecycle]
  unfold recoverCaptured
  rw [bind_inspect_of_ok _ (by rw [hfinalized]), if_pos rfl,
    bind_inspect_of_ok _ (by rw [hverified]; rfl)]
  rfl

/-- The conditions under which a meeting is handed back. -/
structure HandedBack (name : String) (m : MeetingDirectory B) (meeting : MeetingRecord) : Prop where
  isPrivate : requirePrivateDirectory m.tree (.entry []) = .ok ()
  loaded : loadMeeting m.reader name = .ok meeting
  checked : checkTranscribableInterruptedCapture m meeting true = .ok ()

/-- The meeting directory with its record handed back. -/
def afterHandBack (m : MeetingDirectory B) (meeting : MeetingRecord) : MeetingDirectory B :=
  { m with record := some (toVecPretty (handedBackRecord meeting)) }

theorem HandedBack.valid (h : HandedBack name m meeting) :
    (handedBackRecord meeting).validate B name = .ok () := by
  apply (MeetingRecord.validate_eq_ok B _ _).mpr
  have htranscribable := (checkTranscribable_eq_ok.mp h.checked).1
  exact htranscribable.valid ((MeetingRecord.validate_eq_ok B _ _).mp (loadMeeting_eq_ok h.loaded))

/-- A valid record replaces the one that is there. -/
theorem writeMeeting_of_valid (h : meeting.validate B name = .ok ()) (m : MeetingDirectory B) :
    (writeMeeting name meeting).exec m =
      ⟨[{ m with temporaries := ByteString.empty :: m.temporaries },
        { m with temporaries := toVecPretty meeting :: m.temporaries },
        { m with record := some (toVecPretty meeting) }], .ok ()⟩ := by
  unfold writeMeeting meetingBytes
  rw [bind_lift_of_ok _ _ (by rw [h]; rfl)]
  exact MeetingDirectory.replaceRecord_apply _ m

/-- Under its conditions the hand-back replaces the record. -/
theorem HandedBack.handBackIn (h : HandedBack name m meeting) :
    ((Recovery.handBackIn name).exec m).result = .ok .handedToQueue ∧
      ((Recovery.handBackIn name).exec m).final m = afterHandBack m meeting := by
  have hname : ¬ meeting.meetingId ≠ name := by
    have hidentity := ((MeetingRecord.validate_eq_ok B _ _).mp (loadMeeting_eq_ok h.loaded)).identity
    exact fun hne => (refuseIf_eq_ok.mp hidentity) (.inr hne)
  have hwrite : (Durable.mapError InterruptedTranscriptionError.meeting
      (writeMeeting name (handedBackRecord meeting))).exec m = ⟨_, .ok ()⟩ :=
    mapError_of_eq_ok (writeMeeting_of_valid h.valid m)
  unfold Recovery.handBackIn
  rw [bind_inspect_of_ok _ (by rw [h.isPrivate]; rfl),
    bind_inspect_of_ok _ (by rw [h.loaded]; rfl),
    bind_lift_of_ok _ _ (refuseIf_of_not hname),
    bind_inspect_of_ok _ (by exact h.checked), bind_of_eq_ok _ hwrite]
  exact ⟨rfl, rfl⟩

/-- Otherwise it is refused before its first step. -/
theorem handBackIn_cases (name : String) (m : MeetingDirectory B) :
    (∃ e, (handBackIn name).exec m = ⟨[], .error e⟩) ∨ ∃ meeting, HandedBack name m meeting := by
  unfold handBackIn
  cases hprivate : requirePrivateDirectory m.tree (.entry []) with
  | error => exact .inl ⟨_, bind_inspect_of_error _ (by rw [hprivate]; rfl)⟩
  | ok u =>
    rw [bind_inspect_of_ok _ (by rw [hprivate]; rfl)]
    cases hloaded : loadMeeting m.reader name with
    | error => exact .inl ⟨_, bind_inspect_of_error _ (by rw [hloaded]; rfl)⟩
    | ok meeting =>
      rw [bind_inspect_of_ok _ (by rw [hloaded]; rfl)]
      by_cases hname : meeting.meetingId ≠ name
      · exact .inl ⟨_, bind_lift_of_error _ _ (refuseIf_of hname)⟩
      rw [bind_lift_of_ok _ _ (refuseIf_of_not hname)]
      cases hchecked : checkTranscribableInterruptedCapture m meeting true with
      | error => exact .inl ⟨_, bind_inspect_of_error _ (by exact hchecked)⟩
      | ok => exact .inr ⟨meeting, hprivate, hloaded, hchecked⟩

/-- The next pass over a meeting that was handed back leaves it to the queue,
whatever it draws and whenever it runs. -/
theorem HandedBack.recoverOne (h : HandedBack name m meeting) (choices : Choices B)
    (completion : OwnershipReceipt → Option RecoveryCompletion) (now : UInt64) :
    (Recovery.recoverOne choices completion name now).exec (afterHandBack m meeting) =
      ⟨[], .ok (.disposition .capturedAwaitingTranscription)⟩ := by
  have hnew : (handedBackRecord meeting).Valid B name :=
    (MeetingRecord.validate_eq_ok B _ _).mp h.valid
  obtain ⟨htranscribable, hfinalized, -, -, hverified⟩ := checkTranscribable_eq_ok.mp h.checked
  have hkeeps : m.reader.KeepsArtifacts (afterHandBack m meeting).reader :=
    MeetingDirectory.keepsArtifacts_reader (Keeps.refl _)
  have hprivate : requirePrivateDirectory (afterHandBack m meeting).tree (.entry []) = .ok () :=
    h.isPrivate
  have hloaded : loadMeeting (afterHandBack m meeting).reader name = .ok (handedBackRecord meeting) :=
    loadMeeting_of_read h.valid rfl
  apply recoverOne_of_finished hprivate hloaded rfl
  · exact capturedCaptureIsFinalized_of_keeps hnew hkeeps hfinalized
  · have hsame := verifyRecordArtifacts_handedBack htranscribable.lifecycle hverified
    exact verifyRecordArtifacts_of_keeps hnew (by simp [handedBackRecord]) hkeeps hsame

/-- A meeting that its own recovery leaves alone is left alone by a scan, which
reports of it what that recovery answers. -/
theorem scanAndRecover_of_settled {choices : String → Choices B}
    {completion : String → OwnershipReceipt → Option RecoveryCompletion} {now : UInt64}
    {d : RecoveryDisposition} (hentry : meetings.entry name = some m)
    (h : (Recovery.recoverOne (choices name) (completion name) name now).exec m =
      ⟨[], .ok (.disposition d)⟩) :
    let scan := (scanAndRecover choices completion now).exec meetings
    (∃ reports blocks, scan.result = .ok (reports, blocks) ∧
      ∀ d', (name, d') ∈ reports ↔ d' = d) ∧ ∀ t ∈ scan.trace, t.entry name = some m := by
  have hnames : name ∈ meetings.names := Directory.mem_names hentry
  have hmeets : Meets (scanAndRecover choices completion now) meetings
      (fun t => t.entry name = some m) (fun report _ => ∀ d', (name, d') ∈ report.1 ↔ d' = d)
      (fun _ _ => False) := by
    unfold scanAndRecover
    refine Meets.bind_inspect (fun names hnames' => ?_) fun e he => by cases he
    cases hnames'
    refine Meets.bind ((Directory.sweep_of_settled (K := String) h meetings.names meetings hentry).mono
      (fun _ ht => ht) (fun results t ht => Meets.pure fun d' => ?_) fun _ _ hfalse => hfalse)
    simp only [List.map_map, List.mem_map, Function.comp_apply, Prod.mk.injEq]
    constructor
    · rintro ⟨⟨found, result⟩, hmem, rfl, rfl⟩
      rw [((ht.2 result).mp hmem).2]
      rfl
    · rintro rfl
      exact ⟨(name, _), (ht.2 _).mpr ⟨hnames, rfl⟩, rfl, rfl⟩
  obtain ⟨⟨reports, blocks⟩, hresult, hreports⟩ := hmeets.answers
  exact ⟨⟨reports, blocks, hresult, hreports⟩, hmeets.crash⟩

/-- What the call does once the meeting is found. -/
theorem transcribe_of_entry {meetingId : String} (hid : validOpaqueId meetingId = true)
    (hentry : meetings.entry meetingId = some m) :
    (transcribeFinishedInterruptedCapture (.ok ()) meetingId).exec meetings =
      (Directory.within meetingId (handBackIn meetingId)).exec meetings := by
  unfold transcribeFinishedInterruptedCapture
  rw [bind_lift_of_ok _ _ (refuseIf_of_not (not_not_intro hid))]
  exact bind_inspect_of_ok (a := ()) _ (by rw [hentry]; rfl)

/-- Before that, every answer is a refusal or a deferral. -/
theorem transcribe_cases (meetings : Meetings B) (lease : Except MeetingCoordinationError Unit)
    (meetingId : String) :
    let call := (transcribeFinishedInterruptedCapture lease meetingId).exec meetings
    call.result ≠ .ok .handedToQueue ∧ call.trace = [] ∨ ∃ m,
      meetings.entry meetingId = some m ∧
        call = (Directory.within meetingId (handBackIn meetingId)).exec meetings := by
  intro call
  by_cases hid : validOpaqueId meetingId = true
  · cases lease with
    | error e =>
      unfold call transcribeFinishedInterruptedCapture
      rw [bind_lift_of_ok _ _ (refuseIf_of_not (not_not_intro hid))]
      cases e <;> exact .inl ⟨by nofun, rfl⟩
    | ok =>
      cases hentry : meetings.entry meetingId with
      | none =>
        unfold call transcribeFinishedInterruptedCapture
        rw [bind_lift_of_ok _ _ (refuseIf_of_not (not_not_intro hid))]
        rw [bind_inspect_of_error (e := .noSuchMeeting) _ (by rw [hentry]; rfl)]
        exact .inl ⟨by nofun, rfl⟩
      | some m => exact .inr ⟨m, rfl, transcribe_of_entry hid hentry⟩
  · unfold call transcribeFinishedInterruptedCapture
    rw [bind_lift_of_error _ _ (refuseIf_of hid)]
    exact .inl ⟨by nofun, rfl⟩

theorem transcribe_of_handedBack {meetingId : String} (hid : validOpaqueId meetingId = true)
    (hentry : meetings.entry meetingId = some m) (h : HandedBack meetingId m meeting) :
    ((transcribeFinishedInterruptedCapture (.ok ()) meetingId).exec meetings).result =
      .ok .handedToQueue := by
  rw [transcribe_of_entry hid hentry, Directory.within_apply hentry]
  exact h.handBackIn.1

/-- A hand-back is refused, or put off, before its first step.  One that answers
that the meeting is with the queue replaced its record, and from then on every
scan reports the meeting as captured and awaiting transcription and leaves its
directory as it is. -/
theorem handedBack_awaits_transcription (meetings : Meetings B)
    (lease : Except MeetingCoordinationError Unit) (meetingId : String) :
    let call := (transcribeFinishedInterruptedCapture lease meetingId).exec meetings
    (call.result ≠ .ok .handedToQueue → call.trace = []) ∧
    (call.result = .ok .handedToQueue → ∃ m, (call.final meetings).entry meetingId = some m ∧
      ∀ choices completion now,
        (Recovery.recoverOne (choices meetingId) (completion meetingId) meetingId now).exec m =
          ⟨[], .ok (.disposition .capturedAwaitingTranscription)⟩ ∧
        ∃ reports blocks,
          ((scanAndRecover choices completion now).exec (call.final meetings)).result =
            .ok (reports, blocks) ∧
          (∀ d, (meetingId, d) ∈ reports ↔ d = .capturedAwaitingTranscription) ∧
          ∀ t ∈ ((scanAndRecover choices completion now).exec (call.final meetings)).trace,
            t.entry meetingId = some m) := by
  intro call
  rcases transcribe_cases meetings lease meetingId with
    ⟨hrefused, htrace⟩ | ⟨m, hentry, hwithin⟩
  · exact ⟨fun _ => htrace, fun hresult => absurd hresult hrefused⟩
  have hrun : call = (Directory.within meetingId (handBackIn meetingId)).exec meetings := hwithin
  have hfinal : call.final meetings =
      meetings.put meetingId (((handBackIn meetingId).exec m).final m) := by
    rw [hrun]
    exact Directory.final_within hentry _
  rw [Directory.within_apply hentry] at hrun
  rcases handBackIn_cases meetingId m with ⟨e, hrefused⟩ | ⟨meeting, h⟩
  · rw [hrefused] at hrun
    rw [hrun]
    exact ⟨fun _ => rfl, by nofun⟩
  · obtain ⟨hresult, hafter⟩ := h.handBackIn
    refine ⟨fun hne => absurd (by rw [hrun]; exact hresult) hne, fun _ => ?_⟩
    rw [hafter] at hfinal
    have hentry' : (call.final meetings).entry meetingId = some (afterHandBack m meeting) := by
      rw [hfinal]
      exact Directory.entry_put_self _ _ _
    refine ⟨_, hentry', fun choices completion now => ?_⟩
    have hsettled := h.recoverOne (choices meetingId) (completion meetingId) now
    obtain ⟨⟨reports, blocks, hscan, hreports⟩, htrace⟩ :=
      scanAndRecover_of_settled hentry' hsettled
    exact ⟨hsettled, reports, blocks, hscan, hreports, htrace⟩

end Refinement

/-! ## A finished recording that was recovered as interrupted -/

/-- Bytes that all have one digest. -/
abbrev FinishedBytes : Type := Recorded []

def finishedReceipt : Value :=
  let track (name : String) : CaptureReceiptArtifact := ⟨name, 64, emptySha256, "0600"⟩
  .object [("schema", .string "capture-session/2"), ("status", .string "complete"),
    ("started_at", .string "2026-10-28T09:00:00Z"), ("finalized_at", .string "2026-10-28T10:06:00Z"),
    ("health", .object [("usable", .bool true)]), ("reconciliation", .object []),
    ("artifacts", Serde.toValue [track "mic.wav", track "system.wav"])]

def finishedMeeting : MeetingRecord where
  schema := .v2
  meetingId := sampleMeetingId.text
  lifecycle := .recoveredInterrupted
  retention :=
    { rule := .untilManualDeletion
      policySha256 := emptySha256
      nextDeletionAtEpochSeconds := none
      state := .retained
      deletionReceipt := none }
  artifacts :=
    { attempt := ⟨"attempt.json", emptySha256⟩
      ownership := some ⟨"ownership.json", emptySha256⟩
      captureSession := some ⟨sessionRelative, emptySha256⟩
      microphoneAudio := some ⟨microphoneAudioPath, emptySha256⟩
      systemAudio := some ⟨systemAudioPath, emptySha256⟩
      currentTranscript := none
      currentNote := none }
  pendingStorageOperation := none

def finishedDirectory : MeetingDirectory FinishedBytes where
  record := some (toVecPretty finishedMeeting)
  temporaries := []
  tree := List.toAList [⟨.entry [], .directory 0o700⟩,
    ⟨.entry ["attempt.json"], .file 0o600 Document.empty⟩,
    ⟨.entry ["ownership.json"], .file 0o600 Document.empty⟩, ⟨captureDir, .directory 0o700⟩,
    ⟨sessionPath, .file 0o600 (Document.pretty finishedReceipt)⟩,
    ⟨.entry ["capture", "mic.wav"], .file 0o600 (Document.raw "microphone" 64)⟩,
    ⟨.entry ["capture", "system.wav"], .file 0o600 (Document.raw "system" 64)⟩]
  queue := none

def finishedLibrary : Meetings FinishedBytes :=
  Directory.empty.put sampleMeetingId.text finishedDirectory

/-- The finished meeting passes its checks, and its artifacts are the ones it names. -/
theorem checks_finished :
    (validOpaqueId sampleMeetingId.text = true ∧ canonicalAudio finishedMeeting = true ∧
      requirePrivateDirectory finishedDirectory.tree (.entry []) = .ok ()) ∧
    finishedMeeting.validate FinishedBytes sampleMeetingId.text = .ok () ∧
    capturedCaptureIsFinalized finishedDirectory.reader finishedMeeting = true ∧
    captureHealthIsUsable finishedDirectory.reader finishedMeeting = true ∧
    verifyRecordArtifacts finishedDirectory.reader finishedMeeting = .ok () := by
  decide +kernel

theorem transcribable_finished : Transcribable finishedMeeting where
  lifecycle := rfl
  transcript := rfl
  note := rfl
  pending := rfl
  retained := rfl
  ownership := rfl
  audio := checks_finished.1.2.1
  session := rfl

theorem handedBack_finished :
    HandedBack sampleMeetingId.text finishedDirectory finishedMeeting := by
  obtain ⟨⟨-, -, hprivate⟩, hvalid, hfinalized, hhealth, hverified⟩ := checks_finished
  exact {
    isPrivate := hprivate
    loaded := loadMeeting_of_read hvalid rfl
    checked := checkTranscribable_eq_ok.mpr
      ⟨transcribable_finished, hfinalized, hhealth, rfl, hverified⟩ }

theorem transcribe_finished :
    ((transcribeFinishedInterruptedCapture (.ok ()) sampleMeetingId.text).exec
      finishedLibrary).result = .ok .handedToQueue :=
  transcribe_of_handedBack checks_finished.1.1 (Directory.entry_put_self _ _ _) handedBack_finished

/-- The theorem at that meeting. -/
theorem handedBack_awaits_transcription_finished :
    ∃ m, (((transcribeFinishedInterruptedCapture (.ok ()) sampleMeetingId.text).exec
        finishedLibrary).final finishedLibrary).entry sampleMeetingId.text = some m ∧
      ∀ choices completion now,
        (Recovery.recoverOne choices completion sampleMeetingId.text now).exec m =
          ⟨[], .ok (.disposition .capturedAwaitingTranscription)⟩ := by
  obtain ⟨m, hentry, hpasses⟩ := (handedBack_awaits_transcription finishedLibrary (.ok ())
    sampleMeetingId.text).2 transcribe_finished
  exact ⟨m, hentry, fun choices completion now =>
    (hpasses (fun _ => choices) (fun _ => completion) now).1⟩

end Recovery

end YawnApp.SessionCore
