import YawnApp.SessionCore.QueueOperations
import YawnApp.SessionCore.Recorded

set_option autoImplicit false

/-!
# Runs of the queue

A run is a list of calls of the six operations over a whole library, each
stopped after some of its steps.  Whatever a call leaves differs from where it
started in one meeting, and there by one effect.
-/

namespace YawnApp.SessionCore

open YawnApp.Foundation TranscriptionQueue Durable Directory

variable {B : Type} [Platform B] [DecidableEq B]

/-! ## Calls -/

omit [Platform B] [DecidableEq B] in
variable (B) in
/-- One call of the queue, with all it is given. -/
inductive QueueCall where
  | enqueue (request : TranscriptionRequest)
  | claim (id : Uuid) (worker : String) (clock : UInt64) (claimId : Uuid)
  | releaseClaim (id claimId : Uuid) (clock : UInt64)
  | admitResult (id : Uuid) (transcriptBytes : B) (transcript : ArtifactRef) (clock : UInt64)
      (nonce : Uuid)
  | commit (id : Uuid) (clock : UInt64)
  | fail (id : Uuid) (kind : TranscriptionTerminalKind) (clock : UInt64)

namespace QueueCall

def program : QueueCall B → Durable (Meetings B) TranscriptionQueueError TranscriptionQueueItem
  | .enqueue request => TranscriptionQueue.enqueue request
  | .claim id worker clock claimId => TranscriptionQueue.claim id worker clock claimId
  | .releaseClaim id claimId clock => TranscriptionQueue.releaseClaim id claimId clock
  | .admitResult id transcriptBytes transcript clock nonce =>
    TranscriptionQueue.admitResult id transcriptBytes transcript clock nonce
  | .commit id clock => TranscriptionQueue.commit id clock
  | .fail id kind clock => TranscriptionQueue.fail id kind clock

/-- The work of a call in the meeting `name`. -/
def inMeeting (name : String) :
    QueueCall B → Durable (MeetingDirectory B) TranscriptionQueueError TranscriptionQueueItem
  | .enqueue request => enqueueIn request
  | .claim id worker clock claimId => claimIn name id worker clock claimId
  | .releaseClaim id claimId clock => releaseClaimIn name id claimId clock
  | .admitResult id transcriptBytes transcript clock nonce =>
    admitResultIn name id transcriptBytes transcript clock nonce
  | .commit id clock => commitIn name id clock
  | .fail id kind clock => failIn name id kind clock

/-- What is known of a call that works in the meeting `name`. -/
def Enters (library : Meetings B) (name : String) : QueueCall B → Prop
  | .enqueue request => request.validate = .ok () ∧ name = request.meetingId
  | .claim id worker _ _ => worker.utf8ByteSize ≤ 256 ∧ noOtherClaim id library = .ok () ∧
      locate id library = .ok name
  | .releaseClaim id _ _ => locate id library = .ok name
  | .admitResult id _ _ _ _ => locate id library = .ok name
  | .commit id _ => locate id library = .ok name
  | .fail id _ _ => locate id library = .ok name

/-- The states of the library after each step of the call. -/
def states (call : QueueCall B) (library : Meetings B) : List (Meetings B) :=
  (call.program.exec library).trace

/-- The request that the call may make. -/
def Enqueues : QueueCall B → TranscriptionRequest → Prop
  | .enqueue request, other => other = request
  | _, _ => False

/-- The call writes a receipt that is longer than a reader accepts. -/
def Oversized (library : Meetings B) : QueueCall B → Prop
  | .enqueue request => ¬ Fits B request
  | .admitResult id transcriptBytes transcript clock _ => ∃ name, locate id library = .ok name ∧
      ¬ Fits B (⟨.v1, id, name, transcript, Platform.sha256 transcriptBytes, clock⟩ :
        TranscriptionResult)
  | _ => False

/-- The call makes a new directory, of the queue, a request or a claim, and stops
before that is private and has its receipt. -/
def StopsUnfinished (library : Meetings B) : QueueCall B × Nat → Prop
  | (.enqueue request, steps) => request.validate = .ok () ∧
      ∃ m, library.entry request.meetingId = some m ∧ EnqueuesNew m request ∧
        SessionCore.StopsUnfinished m.queue.isSome steps
  | (.claim id worker _ claimId, steps) => worker.utf8ByteSize ≤ 256 ∧
      noOtherClaim id library = .ok () ∧ ∃ name m, locate id library = .ok name ∧
        library.entry name = some m ∧ ClaimsNew name m id claimId ∧
        SessionCore.StopsUnfinished (hasClaims m id) steps
  | _ => False

end QueueCall

/-! ## What a call leaves -/

/-- One meeting of the library has changed by an effect, or nothing has. -/
def LibraryEffect (fresh : TranscriptionRequest → Prop) (oversized unfinished : Prop)
    (library t : Meetings B) : Prop :=
  t = library ∨ ∃ name m m', library.entry name = some m ∧ t = library.put name m' ∧
    QueueEffect (fun id => noOtherClaim id library = .ok ()) fresh oversized unfinished name m m'

/-- Nothing that a reader sees has changed. -/
def LibraryQuiet (library t : Meetings B) : Prop :=
  t = library ∨ ∃ name m m', library.entry name = some m ∧ t = library.put name m' ∧ Quiet m m'

/-- A fact about every meeting of the library. -/
def Everywhere (P : String → MeetingDirectory B → Prop) (library : Meetings B) : Prop :=
  ∀ name m, library.entry name = some m → P name m

/-- Every request of the library is sound. -/
def SoundLibrary (library : Meetings B) : Prop := Everywhere (fun name m => m.Sound name) library

/-- No meeting of the library has a queue folder: nothing was ever enqueued. -/
def NothingEnqueued (library : Meetings B) : Prop := Everywhere (fun _ m => m.queue = none) library

section Calls

variable {library : Meetings B} {m : MeetingDirectory B} {name : String} {id : Uuid}

section

omit [Platform B] [DecidableEq B]

theorem entry_of_locate (h : locate id library = .ok name) :
    ∃ m item, library.entry name = some m ∧ m.item? id = some item := by
  unfold locate at h
  rw [orRefuse_eq_ok] at h
  have hfound := List.find?_some h
  cases hentry : library.entry name with
  | none => simp [hentry] at hfound
  | some m =>
    simp only [hentry, Option.bind_some] at hfound
    obtain ⟨item, hitem⟩ := Option.isSome_iff_exists.mp hfound
    exact ⟨m, item, rfl, hitem⟩

theorem inLocated_of_located {α : Type} (h : locate id library = .ok name)
    (program : String → Durable (MeetingDirectory B) TranscriptionQueueError α) :
    (inLocated id program).exec library = (Directory.within name (program name)).exec library := by
  unfold inLocated
  exact bind_inspect_of_ok _ h

theorem inLocated_of_not {α : Type} {e : TranscriptionQueueError} (h : locate id library = .error e)
    (program : String → Durable (MeetingDirectory B) TranscriptionQueueError α) :
    (inLocated id program).exec library = ⟨[], .error e⟩ := by
  unfold inLocated
  exact bind_inspect_of_error _ h

end

/-- A call is refused at once, or it runs in the meeting `name`. -/
theorem QueueCall.exec_cases (call : QueueCall B) (library : Meetings B) :
    (∃ e, call.program.exec library = ⟨[], .error e⟩) ∨
      ∃ name m, library.entry name = some m ∧ call.Enters library name ∧
        call.program.exec library = (Directory.within name (call.inMeeting name)).exec library := by
  have hlocated : ∀ {id : Uuid}
      {inMeeting : String → Durable (MeetingDirectory B) TranscriptionQueueError
        TranscriptionQueueItem} {P : String → Prop}, (∀ name, locate id library = .ok name → P name) →
      (∃ e, (inLocated id inMeeting).exec library = ⟨[], .error e⟩) ∨
        ∃ name m, library.entry name = some m ∧ P name ∧ (inLocated id inMeeting).exec library =
          (Directory.within name (inMeeting name)).exec library := by
    intro id inMeeting P hP
    cases hlocate : locate id library with
    | error e => exact .inl ⟨e, inLocated_of_not hlocate _⟩
    | ok name =>
      obtain ⟨m, -, hm, -⟩ := entry_of_locate hlocate
      exact .inr ⟨name, m, hm, hP name hlocate, inLocated_of_located hlocate _⟩
  cases call with
  | enqueue request =>
    change (∃ e, (TranscriptionQueue.enqueue request).exec library = _) ∨ ∃ name m, _ ∧ _ ∧
      (TranscriptionQueue.enqueue request).exec library = _
    unfold TranscriptionQueue.enqueue
    cases hvalid : request.validate with
    | error e => exact .inl ⟨e, bind_lift_of_error _ _ rfl⟩
    | ok =>
      rw [bind_lift_of_ok _ _ rfl]
      cases hdir : meetingDir request.meetingId library with
      | error e => exact .inl ⟨e, bind_inspect_of_error _ hdir⟩
      | ok =>
        rw [bind_inspect_of_ok _ hdir]
        unfold meetingDir at hdir
        simp only [bind_eq_ok, refuseIf_eq_ok, Option.isNone_iff_eq_none] at hdir
        obtain ⟨_, -, hpresent⟩ := hdir
        obtain ⟨m, hm⟩ := Option.ne_none_iff_exists'.mp hpresent
        exact .inr ⟨request.meetingId, m, hm, ⟨hvalid, rfl⟩, rfl⟩
  | claim id worker clock claimId =>
    change (∃ e, (TranscriptionQueue.claim id worker clock claimId).exec library = _) ∨
      ∃ name m, _ ∧ _ ∧ (TranscriptionQueue.claim id worker clock claimId).exec library = _
    unfold TranscriptionQueue.claim
    cases hworker : refuseIf (worker = "" ∨ worker.utf8ByteSize > 256)
        (TranscriptionQueueError.malformed "worker identity") with
    | error e => exact .inl ⟨e, bind_lift_of_error _ _ rfl⟩
    | ok =>
      rw [bind_lift_of_ok _ _ rfl]
      rw [refuseIf_eq_ok, not_or, Nat.not_lt] at hworker
      cases hfree : noOtherClaim id library with
      | error e => exact .inl ⟨e, bind_inspect_of_error _ hfree⟩
      | ok =>
        rw [bind_inspect_of_ok _ hfree]
        exact hlocated fun name hlocate => ⟨hworker.2, hfree, hlocate⟩
  | admitResult id transcriptBytes transcript clock nonce =>
    change (∃ e, (TranscriptionQueue.admitResult id transcriptBytes transcript clock nonce).exec
      library = _) ∨ ∃ name m, _ ∧ _ ∧ (TranscriptionQueue.admitResult id transcriptBytes transcript
        clock nonce).exec library = _
    unfold TranscriptionQueue.admitResult
    cases hsize : refuseIf (ByteString.size transcriptBytes = 0 ∨
        ByteString.size transcriptBytes > maxQueuedTranscriptBytes)
        (TranscriptionQueueError.malformed "transcript size") with
    | error e => exact .inl ⟨e, bind_lift_of_error _ _ rfl⟩
    | ok =>
      rw [bind_lift_of_ok _ _ rfl]
      exact hlocated fun name hlocate => hlocate
  | releaseClaim | commit | fail => exact hlocated fun name hlocate => hlocate

/-- Every call stopped anywhere leaves the library as it was, or changed by one
effect in one meeting. -/
theorem QueueCall.cut_effect (hsound : SoundLibrary library) (attempt : QueueCall B × Nat) :
    LibraryEffect attempt.1.Enqueues (attempt.1.Oversized library) (StopsUnfinished library attempt)
      library (cut QueueCall.states library attempt) := by
  obtain ⟨call, steps⟩ := attempt
  unfold cut states
  rcases call.exec_cases library with ⟨e, hexec⟩ | ⟨name, m, hm, henters, hexec⟩
  · rw [hexec]
    exact .inl (by simp)
  rw [hexec]
  refine .inr ⟨name, m, _, hm, cut_within hm _ steps, ?_⟩
  have hquiet : ∀ {free : Uuid → Prop} {fresh : TranscriptionRequest → Prop} {oversized unfinished : Prop},
      QueueEffect free fresh oversized unfinished name m m := .quiet (.refl m)
  cases call with
  | enqueue =>
    obtain ⟨hvalid, rfl⟩ := henters
    refine QueueEffect.mono (enqueueIn_cut hvalid ?_ steps) (fun h => h) fun h => ⟨hvalid, m, hm, h⟩
    exact rfl
  | claim id worker clock claimId =>
    obtain ⟨hworker, hfree, hlocate⟩ := henters
    exact (claimIn_cut hworker hfree clock claimId steps).mono (fun h => h) fun h =>
      ⟨hworker, hfree, name, m, hlocate, hm, h⟩
  | releaseClaim id claimId clock =>
    exact (releaseClaimIn_effect (hsound name m hm) id claimId clock).cut hquiet steps
  | admitResult id transcriptBytes transcript clock nonce =>
    refine (admitResultIn_effect (hsound name m hm) id transcriptBytes transcript clock nonce
      fun hsmall => ?_).cut hquiet steps
    by_contra hbig
    exact hsmall ⟨name, henters, hbig⟩
  | commit id clock => exact (commitIn_effect (hsound name m hm) id clock).cut hquiet steps
  | fail id kind clock => exact (failIn_effect id kind clock).cut hquiet steps

/-- A call that is refused has changed nothing that a reader sees, unless its
receipt is too long to be read back. -/
theorem QueueCall.error_quiet (hsound : SoundLibrary library) {call : QueueCall B}
    (hsmall : ¬ call.Oversized library) {e : TranscriptionQueueError}
    (h : (call.program.exec library).result = .error e) :
    LibraryQuiet library ((call.program.exec library).final library) := by
  rcases call.exec_cases library with ⟨d, hexec⟩ | ⟨name, m, hm, henters, hexec⟩
  · rw [hexec]
    exact .inl rfl
  rw [hexec] at h ⊢
  rw [within_apply hm] at h
  refine .inr ⟨name, m, _, hm, final_within hm _, ?_⟩
  have hrefused : ∀ {program : Durable (MeetingDirectory B) TranscriptionQueueError
      TranscriptionQueueItem}, Meets program m (QueueEffect (fun _ => True) (fun _ => True) False False name m)
        (fun _ t => QueueEffect (fun _ => True) (fun _ => True) False False name m t) (fun _ t => Quiet m t) →
      (program.exec m).result = .error e → Quiet m ((program.exec m).final m) :=
    fun hmeets he => hmeets.error e he
  cases call with
  | enqueue => exact enqueueIn_error (not_not.mp hsmall) h
  | claim => exact claimIn_error henters.1 h
  | releaseClaim id claimId clock =>
    exact hrefused (releaseClaimIn_effect (hsound name m hm) id claimId clock) h
  | admitResult id transcriptBytes transcript clock nonce =>
    refine hrefused ((admitResultIn_effect (hsound name m hm) id transcriptBytes transcript clock
      nonce fun _ => ?_).mono (fun _ ht => ht) (fun _ _ ht => ht) fun _ _ ht => ht (fun h => h)) h
    by_contra hbig
    exact hsmall ⟨name, henters, hbig⟩
  | commit id clock => exact hrefused (commitIn_effect (hsound name m hm) id clock) h
  | fail id kind clock => exact hrefused (failIn_effect id kind clock) h

/-- `enqueue` of a valid request works in the meeting of the request. -/
theorem enqueue_of_valid {request : TranscriptionRequest} (hvalid : request.validate = .ok ())
    (hm : library.entry request.meetingId = some m) :
    (QueueCall.enqueue request).program.exec library =
      (Directory.within request.meetingId (enqueueIn request)).exec library := by
  have hdir : meetingDir request.meetingId library = .ok () := by
    unfold meetingDir
    rw [refuseIf_of_not (by simp [meetingId_of_validate hvalid]), ok_bind,
      refuseIf_of_not (by simp [hm])]
  change (TranscriptionQueue.enqueue request).exec library = _
  unfold TranscriptionQueue.enqueue
  rw [bind_lift_of_ok _ _ hvalid, bind_inspect_of_ok _ hdir]

/-- What `enqueue` of a new request leaves when it is stopped. -/
theorem cut_enqueue_of_new {request : TranscriptionRequest} {meeting : MeetingRecord}
    (hvalid : request.validate = .ok ()) (hm : library.entry request.meetingId = some m)
    (hsource : loadSource request.meetingId request m = .ok meeting)
    (hnew : m.item? request.requestId = none) (steps : Nat) :
    cut QueueCall.states library (.enqueue request, steps) =
      library.put request.meetingId (((enqueueStates m request).take steps).getLastD m) := by
  unfold cut QueueCall.states
  rw [enqueue_of_valid hvalid hm, cut_within hm, enqueueIn_of_new hsource hnew]

/-! ### Runs -/

omit [Platform B] [DecidableEq B] in
theorem everywhere_put {P : String → MeetingDirectory B → Prop} (h : Everywhere P library)
    (hm : P name m) : Everywhere P (library.put name m) := by
  intro other m' hm'
  rw [entry_put] at hm'
  split at hm'
  · rename_i hother
    cases hm'
    exact hother ▸ hm
  · exact h other m' hm'

omit [DecidableEq B] in
/-- What every effect keeps of a meeting is kept of the library. -/
theorem LibraryEffect.everywhere {fresh : TranscriptionRequest → Prop} {oversized unfinished : Prop}
    {t : Meetings B} {P : String → MeetingDirectory B → Prop}
    (h : LibraryEffect fresh oversized unfinished library t)
    (hstep : ∀ name m m', library.entry name = some m →
      QueueEffect (fun id => noOtherClaim id library = .ok ()) fresh oversized unfinished name m m' →
      P name m → P name m') (hP : Everywhere P library) : Everywhere P t := by
  rcases h with rfl | ⟨name, m, m', hm, rfl, heffect⟩
  · exact hP
  · exact everywhere_put hP (hstep name m m' hm heffect (hP name m hm))

theorem SoundLibrary.cut (h : SoundLibrary library) (attempt : QueueCall B × Nat) :
    SoundLibrary (cut QueueCall.states library attempt) :=
  (QueueCall.cut_effect h attempt).everywhere (fun _ _ _ _ heffect hm => heffect.sound hm) h

omit [Platform B] [DecidableEq B] in
theorem view?_of_queue_none (h : m.queue = none) (id : Uuid) : m.view? id = none := by
  unfold MeetingDirectory.view? MeetingDirectory.item?
  rw [h]
  rfl

omit [DecidableEq B] in
theorem NothingEnqueued.sound (h : NothingEnqueued library) : SoundLibrary library := by
  intro name m hm id v hv
  rw [view?_of_queue_none (h name m hm)] at hv
  cases hv

/-- The requests stay sound in every run, however its calls are stopped. -/
theorem soundLibrary_run (h : NothingEnqueued library) (attempts : List (QueueCall B × Nat)) :
    SoundLibrary (run QueueCall.states library attempts) :=
  run_invariant_of_cut (I := SoundLibrary) QueueCall.states (fun _ attempt hs => hs.cut attempt)
    attempts library h.sound

end Calls

/-! ## A library to try things with

One captured meeting whose files are all empty, and a transcript for it. -/

def capturedTranscriptSha256 : String :=
  "1f0d3c5b7a99e8f60412233445566778899aabbccddeeff00112233445566778"

abbrev CapturedBytes : Type := Recorded [(.raw "transcript" 10, capturedTranscriptSha256)]

def capturedMeeting : MeetingRecord where
  schema := .v2
  meetingId := sampleMeetingId.text
  lifecycle := .captured
  retention :=
    { rule := .untilManualDeletion
      policySha256 := emptySha256
      nextDeletionAtEpochSeconds := none
      state := .retained
      deletionReceipt := none }
  artifacts :=
    { attempt := ⟨"attempt.json", emptySha256⟩
      ownership := some ⟨"ownership.json", emptySha256⟩
      captureSession := some ⟨"capture/session.json", emptySha256⟩
      microphoneAudio := some ⟨microphoneAudioPath, emptySha256⟩
      systemAudio := some ⟨systemAudioPath, emptySha256⟩
      currentTranscript := none
      currentNote := none }
  pendingStorageOperation := none

def capturedTree : ArtifactTree CapturedBytes :=
  let empty : Node CapturedBytes := .file 0o600 Document.empty
  List.toAList [⟨.entry [], .directory 0o700⟩, ⟨.entry ["attempt.json"], empty⟩,
    ⟨.entry ["ownership.json"], empty⟩, ⟨.entry ["capture"], .directory 0o700⟩,
    ⟨.entry ["capture", "session.json"], empty⟩, ⟨.entry ["capture", "mic.wav"], empty⟩,
    ⟨.entry ["capture", "system.wav"], empty⟩]

def capturedDirectory : MeetingDirectory CapturedBytes :=
  ⟨some (toVecPretty capturedMeeting), [], capturedTree, none⟩

def capturedLibrary : Meetings CapturedBytes :=
  Directory.empty.put sampleMeetingId.text capturedDirectory

def capturedRequest : TranscriptionRequest where
  schema := .v1
  requestId := sampleOperationId
  meetingId := sampleMeetingId.text
  captureSessionSha256 := emptySha256
  microphoneAudioSha256 := emptySha256
  systemAudioSha256 := emptySha256
  modelIdentity := "ggml-base.en"
  producer := none
  workerRuntimeIdentity := "worker"
  enqueuedAtEpochSeconds := 1754000000

theorem eq_of_entry_captured {name : String} {m : MeetingDirectory CapturedBytes}
    (h : capturedLibrary.entry name = some m) : name = sampleMeetingId.text ∧ m = capturedDirectory := by
  unfold capturedLibrary at h
  rw [entry_put] at h
  split at h
  · rename_i hname
    exact ⟨hname, (Option.some.inj h).symm⟩
  · cases h

theorem nothingEnqueued_captured : NothingEnqueued capturedLibrary := by
  intro name m hm
  rw [(eq_of_entry_captured hm).2]
  rfl

/-- The captured meeting and the request for it pass their checks. -/
theorem checks_captured :
    capturedMeeting.validate CapturedBytes sampleMeetingId.text = .ok () ∧
    verifySource capturedDirectory.reader capturedMeeting capturedRequest = .ok () ∧
    capturedRequest.validate = .ok () ∧ Fits CapturedBytes capturedRequest := by
  decide +kernel

theorem validate_captured : capturedMeeting.validate CapturedBytes sampleMeetingId.text = .ok () :=
  checks_captured.1

theorem loadMeeting_captured :
    loadMeeting capturedDirectory.reader sampleMeetingId.text = .ok capturedMeeting :=
  loadMeeting_of_read validate_captured rfl

theorem loadSource_captured :
    loadSource sampleMeetingId.text capturedRequest capturedDirectory = .ok capturedMeeting :=
  loadSource_eq_ok.mpr ⟨loadMeeting_captured, rfl, rfl, checks_captured.2.1⟩

theorem validate_capturedRequest : capturedRequest.validate = .ok () := checks_captured.2.2.1

theorem fits_capturedRequest : Fits CapturedBytes capturedRequest :=
  checks_captured.2.2.2

end YawnApp.SessionCore
