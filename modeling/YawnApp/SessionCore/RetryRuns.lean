import YawnApp.SessionCore.ArtifactPlaces
import YawnApp.SessionCore.RecordWriters
import YawnApp.SessionCore.StorageFrames

set_option autoImplicit false

/-!
# Runs of transcript retries

The receipt of a retry and the pointer of the meeting are two files, and a
restoration moves the same pointer.  This module follows a meeting through any
sequence of `create_candidate`, `keep_current`, `promote_candidate` and
restorations, each stopped anywhere.  The invariant is that the meeting stays
one that a retry may work on, that every receipt was written whole by a retry of
this meeting, and that at most one of them is undecided.
-/

namespace YawnApp.SessionCore

open YawnApp.Foundation

namespace TranscriptRetry

/-! ## The calls -/

/-- What the worker of a restoration may do to the artifacts: store new
transcripts. -/
def StoresTranscripts {B : Type} (v t : ArtifactTree B) : Prop :=
  ∀ p, t.node p = v.node p ∨ v.node p = none ∧ ∃ file, p = .entry ["transcript", file]

theorem StoresTranscripts.refl {B : Type} (v : ArtifactTree B) : StoresTranscripts v v :=
  fun _ => .inl rfl

/-- The worker of a restoration, which is another program. -/
structure RestorationWorker (B : Type) where
  answer : TranscriptRestoreWorkerArgs → Durable (ArtifactTree B) TranscriptRestoreWorkerError Digests
  stores : ∀ arguments, Moves StoresTranscripts (answer arguments)

section Calls

variable {B : Type} [Platform B] [DecidableEq B]

/-- `apply_result` in the meeting directory.  The receipts of a restoration are
kept outside of it. -/
def applyRestorationIn (request : TranscriptRestorationRequest)
    (result : TranscriptRestorationResult) :
    Durable (MeetingDirectory B) TranscriptRestorationCoordinatorError Unit := do
  let meeting ← Durable.inspect fun m =>
    TranscriptRestorationCoordinator.prepareApply m.reader request result
  Durable.mapError .meeting (Recovery.writeMeeting request.meetingId.text meeting)

/-- `execute_request` in the meeting directory. -/
def executeRestorationIn (worker : RestorationWorker B) (request : TranscriptRestorationRequest) :
    Durable (MeetingDirectory B) TranscriptRestorationCoordinatorError Unit := do
  let (source, arguments) ← Durable.inspect fun m =>
    TranscriptRestorationCoordinator.prepareExecute m.reader request
  let digests ← MeetingDirectory.inTree (Durable.mapError .worker (worker.answer arguments))
  let result ← Durable.inspect fun m =>
    TranscriptRestorationCoordinator.inspectWorkerResult m.reader request source digests
  applyRestorationIn request result

/-- What can happen to the meeting `name`. -/
inductive RetryCall (B : Type) (name : String) where
  | createCandidate (choices : Choices) (id : Uuid) (bytes : B)
      (binding : TranscriptRetrySourceBinding)
  | keepCurrent (nonce : Uuid) (id : Uuid)
  | promoteCandidate (nonce : Uuid) (id : Uuid)
  /-- `restore_withheld_turn`, from its stored request on. -/
  | restoreWithheldTurn (worker : RestorationWorker B) (request : TranscriptRestorationRequest)
      (h : request.meetingId.text = name)
  /-- A restoration that goes on from its stored result. -/
  | resumeRestoration (request : TranscriptRestorationRequest) (result : TranscriptRestorationResult)
      (h : request.meetingId.text = name)

/-- The states a call passes. -/
def RetryCall.states {name : String} (call : RetryCall B name) (m : MeetingDirectory B) :
    List (MeetingDirectory B) :=
  match call with
  | .createCandidate choices id bytes binding =>
    ((createCandidateIn choices name id bytes binding).exec m).trace
  | .keepCurrent nonce id => ((keepCurrentIn nonce name id).exec m).trace
  | .promoteCandidate nonce id => ((promoteCandidateIn nonce name id).exec m).trace
  | .restoreWithheldTurn worker request _ => ((executeRestorationIn worker request).exec m).trace
  | .resumeRestoration request result _ => ((applyRestorationIn request result).exec m).trace

end Calls

/-! ## The receipt -/

theorem candidate_prettySize_le {candidate : TranscriptRetryCandidate}
    (h : validateCandidateShape candidate = .ok ()) :
    (Serde.toValue candidate).prettySize 0 ≤ 2000 := by
  have hnamed := validateDigestNamed_of_shape h
  unfold validateCandidateShape at h
  simp only [refuseIf_eq_ok, not_or, not_not] at h
  obtain ⟨hmeeting, hsource, hsession, hmicrophone, hsystem, -, -⟩ := h
  have hschema : (Serde.toValue candidate.schema).prettySize 1 ≤ 40 := by
    cases candidate.schema
    decide
  have hstate : (Serde.toValue candidate.state).prettySize 1 ≤ 40 := by
    cases candidate.state <;> decide
  have hid := textSize_of_validOpaqueId hmeeting
  have htranscript := ArtifactRef.prettySize_of_digestNamed hnamed 1
  have hdirectory : Value.textSize "transcript" = 10 := by decide
  have hextension : Value.textSize "json" = 4 := by decide
  refine (Value.prettySize_record_le ["schema", "operation_id", "meeting_id", "state",
    "source_transcript_sha256", "capture_session_sha256", "microphone_audio_sha256",
    "system_audio_sha256", "candidate_transcript"] 250 1200 rfl (by decide) ?_).trans ?_
  · simp only [List.map_cons, List.map_nil, List.sum_cons, List.sum_nil, Nat.zero_add,
      prettySize_uuid, prettySize_string, textSize_of_validSha256 hsource,
      textSize_of_validSha256 hsession, textSize_of_validSha256 hmicrophone,
      textSize_of_validSha256 hsystem]
    omega
  · simp only [List.length_cons, List.length_nil]
    omega

/-! ## The invariant -/

section Invariant

variable {B : Type} [Platform B]

/-- The digests of a capture, which a retry binds and no retry changes. -/
structure CapturedDigests where
  session : String
  microphone : String
  system : String

/-- The capture of a meeting has these digests. -/
structure CapturedDigests.Of (source : CapturedDigests) (meeting : MeetingRecord) : Prop where
  session : meeting.artifacts.captureSession.map ArtifactRef.sha256 = some source.session
  microphone : meeting.artifacts.microphoneAudio.map ArtifactRef.sha256 = some source.microphone
  system : meeting.artifacts.systemAudio.map ArtifactRef.sha256 = some source.system

/-- The receipt of one operation, as a retry of the meeting wrote it. -/
structure StoredCandidate (name : String) (source : CapturedDigests) (m : MeetingDirectory B)
    (id : Uuid) (candidate : TranscriptRetryCandidate) : Prop where
  file : m.tree.node (receiptPath id) = some (.file 0o600 (toVecPretty candidate))
  shape : validateCandidateShape candidate = .ok ()
  operationId : candidate.operationId = id
  meetingId : candidate.meetingId = name
  session : candidate.captureSessionSha256 = source.session
  microphone : candidate.microphoneAudioSha256 = source.microphone
  system : candidate.systemAudioSha256 = source.system
  verified : verifyArtifactRef m.reader candidate.candidateTranscript = .ok ()
  retryPrivate : requirePrivateDirectory m.tree retryDir = .ok ()
  isPrivate : requirePrivateDirectory m.tree (operationDir id) = .ok ()

/-- A meeting that retries may work on, with the receipts of its retries. -/
structure Retryable (name : String) (source : CapturedDigests) (m : MeetingDirectory B) : Prop where
  eligible : ∃ meeting, Eligible name m meeting ∧ source.Of meeting
  receipts : ∀ id mode bytes, m.tree.node (receiptPath id) = some (.file mode bytes) →
    ∃ candidate, StoredCandidate name source m id candidate
  single : ∀ id id' candidate candidate', StoredCandidate name source m id candidate →
    StoredCandidate name source m id' candidate' →
    candidate.state = .candidateAvailableForComparison →
    candidate'.state = .candidateAvailableForComparison → id = id'

variable {name : String} {source : CapturedDigests} {m t : MeetingDirectory B} {id : Uuid}
  {candidate : TranscriptRetryCandidate}

theorem StoredCandidate.loadReceipt (h : StoredCandidate name source m id candidate) :
    TranscriptRetry.loadReceipt m.tree id = .ok candidate := by
  have hsize : ByteString.size (toVecPretty candidate : B) ≤ maxReceiptBytes :=
    (size_toVecPretty candidate).trans_le ((candidate_prettySize_le h.shape).trans (by decide))
  exact loadReceipt_eq_ok.mpr ⟨h.isPrivate,
    ⟨_, readPrivateBytes_of_file h.file hsize, fromSlice_toVecPretty candidate⟩, h.shape,
    h.operationId⟩

theorem StoredCandidate.unique {other : TranscriptRetryCandidate}
    (h : StoredCandidate name source m id candidate) (h' : StoredCandidate name source m id other) :
    candidate = other := Except.ok.inj (h.loadReceipt.symm.trans h'.loadReceipt)

/-- Whatever is read as a receipt is one. -/
theorem Retryable.stored (h : Retryable name source m)
    (hload : TranscriptRetry.loadReceipt m.tree id = .ok candidate) :
    StoredCandidate name source m id candidate := by
  obtain ⟨-, ⟨bytes, hbytes, -⟩, -⟩ := loadReceipt_eq_ok.mp hload
  have hfile : ∃ mode found, m.tree.node (receiptPath id) = some (.file mode found) := by
    unfold readPrivateBytes openPrivateFile at hbytes
    cases hnode : m.tree.node (receiptPath id) with
    | none => simp [hnode] at hbytes
    | some n =>
      cases n with
      | file mode found => exact ⟨mode, found, rfl⟩
      | directory | symlink => simp [hnode] at hbytes
  obtain ⟨mode, found, hnode⟩ := hfile
  obtain ⟨other, hother⟩ := h.receipts id mode found hnode
  rw [hother.loadReceipt, Except.ok.injEq] at hload
  exact hload ▸ hother

/-! ### What work on the artifacts keeps -/

/-- Work that keeps the shallow places, and every receipt but those of `but`. -/
structure Calm (but : Uuid → Prop) (v t : ArtifactTree B) : Prop where
  keeps : Keeps Shallow v t
  receipts : ∀ id, ¬ but id → ∀ mode bytes, t.node (receiptPath id) = some (.file mode bytes) ↔
    v.node (receiptPath id) = some (.file mode bytes)

variable {but : Uuid → Prop} {v u w : ArtifactTree B}

section

omit [Platform B]

theorem Calm.refl (v : ArtifactTree B) : Calm but v v := ⟨.refl v, fun _ _ _ _ => Iff.rfl⟩

theorem Calm.trans (h : Calm but v u) (h' : Calm but u w) : Calm but v w :=
  ⟨h.keeps.trans h'.keeps, fun id hid mode bytes =>
    (h'.receipts id hid mode bytes).trans (h.receipts id hid mode bytes)⟩

theorem Calm.mono (h : Calm (fun _ => False) v u) : Calm but v u :=
  ⟨h.keeps, fun id _ => h.receipts id fun hfalse => hfalse⟩

/-- A frame without shallow places and without other receipts. -/
theorem Calm.of_frame {touched : MeetingPath → Prop} (hkeeps : Keeps Shallow v u)
    (hframe : Frame touched v u) (hreceipts : ∀ id, ¬ but id → ¬ touched (receiptPath id)) :
    Calm but v u :=
  ⟨hkeeps, fun id hid _ _ => hframe.file_iff (hreceipts id hid)⟩

theorem shallow_places (id : Uuid) :
    Shallow retryDir ∧ Shallow (operationDir id) ∧ ¬ Shallow (receiptPath id) := by
  simp [Shallow, retryDir, operationDir, receiptPath, receiptComponents]

theorem createPrivateDir_calm (p : MeetingPath) :
    Moves (Calm fun _ => False) (createPrivateDir p : Durable (ArtifactTree B) IoError Unit) := by
  intro v u hu
  have hframe : Frame (fun _ => False) v u := createPrivateDir_moves p v u hu
  exact Calm.of_frame (createPrivateDir_keeps p v u hu) hframe fun _ _ h => h

end

/-- A new transcript. -/
theorem createTranscript_calm {file : String} (nonce : Uuid) (bytes : B) :
    Moves (Calm fun _ => False) (durableCreateNew (.entry ["transcript", file])
      (.temporary ["transcript", file] nonce) bytes) := by
  intro v u hu
  have hframe : Frame (fun p => p = .entry ["transcript", file] ∨
      p = .temporary ["transcript", file] nonce) v u :=
    durableCreateNew_moves bytes (.inl rfl) (.inr rfl) v u hu
  refine Calm.of_frame (durableCreateNew_keeps _ bytes (by simp [Shallow]) v u hu) hframe
    fun id _ h => ?_
  simp [receiptPath, receiptComponents] at h

omit [Platform B] in
/-- The receipt of one operation, new or replaced. -/
theorem receipt_calm {id : Uuid} {nonce : Uuid} {program : Durable (ArtifactTree B) IoError Unit}
    (hmoves : Moves (Frame fun p => p = receiptPath id ∨ p = .temporary (receiptComponents id) nonce)
      program) : Moves (Calm fun other => other = id) program := by
  intro v u hu
  have hframe := hmoves v u hu
  refine Calm.of_frame (hframe.keeps fun p hp htouched => ?_) hframe fun other hother htouched => ?_
  · rcases htouched with rfl | rfl
    · exact (shallow_places id).2.2 hp
    · exact hp
  · rcases htouched with heq | heq
    · simp only [receiptPath, receiptComponents, MeetingPath.entry.injEq, List.cons.injEq, true_and,
        and_true] at heq
      exact hother (Uuid.ext heq)
    · cases heq

omit [Platform B] in
theorem StoresTranscripts.calm (h : StoresTranscripts v u) : Calm (fun _ => False) v u := by
  refine ⟨⟨fun p _ mode bytes hfile => ?_, fun p _ mode hdir => ?_⟩, fun id _ mode bytes => ?_⟩
  · rcases h p with hsame | ⟨hnone, -⟩
    · rwa [hsame]
    · rw [hnone] at hfile
      cases hfile
  · rcases h p with hsame | ⟨hnone, -⟩
    · exact ⟨mode, by rwa [hsame], .inl rfl⟩
    · rw [hnone] at hdir
      cases hdir
  · rcases h (receiptPath id) with hsame | ⟨-, file, hplace⟩
    · rw [hsame]
    · simp [receiptPath, receiptComponents] at hplace

/-! ### Its preservation -/

/-- The transcript of a well-formed candidate is shallow. -/
theorem place_of_shape (h : validateCandidateShape candidate = .ok ()) :
    components candidate.candidateTranscript.relativePath =
      ["transcript", candidate.candidateTranscript.sha256 ++ "." ++ "json"] :=
  components_of_validateDigestNamed (validateDigestNamed_of_shape h) (by decide) (by decide)
    (by decide)

theorem verified_of_shallow (hkeeps : Keeps Shallow m.tree t.tree)
    (hshape : validateCandidateShape candidate = .ok ())
    (h : verifyArtifactRef m.reader candidate.candidateTranscript = .ok ()) :
    verifyArtifactRef t.reader candidate.candidateTranscript = .ok () := by
  refine verifyArtifactRef_of_shallow hkeeps ?_ h
  rw [place_of_shape hshape]
  exact .transcript _

theorem StoredCandidate.of_calm (hcalm : Calm but m.tree t.tree) (hid : ¬ but id)
    (h : StoredCandidate name source m id candidate) : StoredCandidate name source t id candidate where
  file := (hcalm.receipts id hid _ _).mpr h.file
  shape := h.shape
  operationId := h.operationId
  meetingId := h.meetingId
  session := h.session
  microphone := h.microphone
  system := h.system
  verified := verified_of_shallow hcalm.keeps h.shape h.verified
  retryPrivate := hcalm.keeps.isPrivate (shallow_places id).1 h.retryPrivate
  isPrivate := hcalm.keeps.isPrivate (shallow_places id).2.1 h.isPrivate

/-- A receipt that is kept was there before. -/
theorem Retryable.stored_of_calm (h : Retryable name source m) (hcalm : Calm but m.tree t.tree)
    (hid : ¬ but id) (hstored : StoredCandidate name source t id candidate) :
    StoredCandidate name source m id candidate := by
  obtain ⟨other, hother⟩ := h.receipts id _ _ ((hcalm.receipts id hid _ _).mp hstored.file)
  rw [hstored.unique (hother.of_calm hcalm hid)]
  exact hother

theorem Eligible.of_shallow {meeting : MeetingRecord} (hkeeps : Keeps Shallow m.tree t.tree)
    (hrecord : t.record = m.record) (h : Eligible name m meeting) : Eligible name t meeting where
  isPrivate := hkeeps.isPrivate (by simp [Shallow]) h.isPrivate
  loaded := by
    have hload := h.loaded
    unfold loadMeeting readBounded at hload ⊢
    rwa [MeetingDirectory.reader_record, hrecord, ← MeetingDirectory.reader_record]
  identity := h.identity
  retained := h.retained
  lifecycle := h.lifecycle
  pending := h.pending
  verified := by
    refine verifyRecordArtifacts_of_shallow h.valid ?_ hkeeps h.verified
    rcases h.lifecycle with hl | hl | hl <;> rw [hl] <;> decide

/-- The invariant survives work that keeps every receipt. -/
theorem Retryable.of_calm (h : Retryable name source m) (hrecord : t.record = m.record)
    (hcalm : Calm (fun _ => False) m.tree t.tree) : Retryable name source t where
  eligible := by
    obtain ⟨meeting, hmeeting, hsource⟩ := h.eligible
    exact ⟨meeting, hmeeting.of_shallow hcalm.keeps hrecord, hsource⟩
  receipts id mode bytes hfile := by
    obtain ⟨candidate, hstored⟩ := h.receipts id mode bytes ((hcalm.receipts id not_false mode bytes).mp
      hfile)
    exact ⟨candidate, hstored.of_calm hcalm not_false⟩
  single id id' candidate candidate' hc hc' :=
    h.single id id' candidate candidate' (h.stored_of_calm hcalm not_false hc)
      (h.stored_of_calm hcalm not_false hc')

/-! ### Steps -/

/-- What every step of a call does to a meeting: the invariant holds again, the
artifacts are still there and what was decided stays decided. -/
structure RetryStep (name : String) (source : CapturedDigests) (m t : MeetingDirectory B) : Prop where
  retryable : Retryable name source t
  keeps : Keeps Shallow m.tree t.tree
  decided : ∀ id candidate, StoredCandidate name source m id candidate →
    candidate.state ≠ .candidateAvailableForComparison → StoredCandidate name source t id candidate

theorem RetryStep.refl (h : Retryable name source m) : RetryStep name source m m :=
  ⟨h, .refl _, fun _ _ hstored _ => hstored⟩

theorem RetryStep.trans {n : MeetingDirectory B} (hmt : RetryStep name source m t)
    (htn : RetryStep name source t n) : RetryStep name source m n :=
  ⟨htn.retryable, hmt.keeps.trans htn.keeps, fun id candidate hstored hstate =>
    htn.decided id candidate (hmt.decided id candidate hstored hstate) hstate⟩

theorem RetryStep.of_calm (h : Retryable name source m) (hrecord : t.record = m.record)
    (hcalm : Calm (fun _ => False) m.tree t.tree) : RetryStep name source m t :=
  ⟨h.of_calm hrecord hcalm, hcalm.keeps, fun _ _ hstored _ => hstored.of_calm hcalm not_false⟩

omit [Platform B] in
theorem Calm.of_same (h : Calm (fun other => other = id) v u)
    (hsame : u.node (receiptPath id) = v.node (receiptPath id)) : Calm (fun _ => False) v u := by
  refine ⟨h.keeps, fun other _ mode bytes => ?_⟩
  by_cases hother : other = id
  · rw [hother, hsame]
  · exact h.receipts other hother mode bytes

/-- A pending candidate is decided. -/
theorem RetryStep.of_decided (h : Retryable name source m)
    (hstored : StoredCandidate name source m id candidate)
    (hpending : candidate.state = .candidateAvailableForComparison)
    (hrecord : t.record = m.record) (hcalm : Calm (fun other => other = id) m.tree t.tree)
    {state : TranscriptRetryState} (hstate : state ≠ .candidateAvailableForComparison)
    (hfile : t.tree.node (receiptPath id) =
      some (.file 0o600 (toVecPretty { candidate with state }))) :
    RetryStep name source m t ∧ StoredCandidate name source t id { candidate with state } := by
  have hnew : StoredCandidate name source t id { candidate with state } := {
    file := hfile
    shape := hstored.shape
    operationId := hstored.operationId
    meetingId := hstored.meetingId
    session := hstored.session
    microphone := hstored.microphone
    system := hstored.system
    verified := verified_of_shallow hcalm.keeps hstored.shape hstored.verified
    retryPrivate := hcalm.keeps.isPrivate (shallow_places id).1 hstored.retryPrivate
    isPrivate := hcalm.keeps.isPrivate (shallow_places id).2.1 hstored.isPrivate }
  -- the decided receipt is not pending any more
  have hother : ∀ other c, StoredCandidate name source t other c →
      c.state = .candidateAvailableForComparison → other ≠ id := by
    rintro other c hc hcstate rfl
    rw [hc.unique hnew] at hcstate
    exact hstate hcstate
  refine ⟨⟨⟨?_, ?_, ?_⟩, hcalm.keeps, ?_⟩, hnew⟩
  · obtain ⟨meeting, hmeeting, hsource⟩ := h.eligible
    exact ⟨meeting, hmeeting.of_shallow hcalm.keeps hrecord, hsource⟩
  · intro other mode bytes hnode
    by_cases heq : other = id
    · exact ⟨_, heq ▸ hnew⟩
    · obtain ⟨c, hc⟩ := h.receipts other mode bytes ((hcalm.receipts other heq mode bytes).mp hnode)
      exact ⟨c, hc.of_calm hcalm heq⟩
  · intro other other' c c' hc hc' hcstate hcstate'
    exact h.single other other' c c' (h.stored_of_calm hcalm (hother other c hc hcstate) hc)
      (h.stored_of_calm hcalm (hother other' c' hc' hcstate') hc') hcstate hcstate'
  · intro other c hc hcstate
    apply hc.of_calm hcalm
    rintro rfl
    rw [hc.unique hstored] at hcstate
    exact hcstate hpending

/-- A candidate is stored while none is pending. -/
theorem RetryStep.of_created (h : Retryable name source m)
    (hnone : ∀ other c, StoredCandidate name source m other c →
      c.state ≠ .candidateAvailableForComparison)
    (hfree : m.tree.node (receiptPath id) = none) (hrecord : t.record = m.record)
    (hcalm : Calm (fun other => other = id) m.tree t.tree)
    (hnew : StoredCandidate name source t id candidate) : RetryStep name source m t := by
  have hother : ∀ other c, StoredCandidate name source t other c →
      c.state = .candidateAvailableForComparison → other = id := by
    intro other c hc hcstate
    by_contra hne
    exact hnone other c (h.stored_of_calm hcalm hne hc) hcstate
  refine ⟨⟨?_, ?_, ?_⟩, hcalm.keeps, ?_⟩
  · obtain ⟨meeting, hmeeting, hsource⟩ := h.eligible
    exact ⟨meeting, hmeeting.of_shallow hcalm.keeps hrecord, hsource⟩
  · intro other mode bytes hnode
    by_cases heq : other = id
    · exact ⟨_, heq ▸ hnew⟩
    · obtain ⟨c, hc⟩ := h.receipts other mode bytes ((hcalm.receipts other heq mode bytes).mp hnode)
      exact ⟨c, hc.of_calm hcalm heq⟩
  · intro other other' c c' hc hc' hcstate hcstate'
    exact (hother other c hc hcstate).trans (hother other' c' hc' hcstate').symm
  · intro other c hc _
    apply hc.of_calm hcalm
    rintro rfl
    have hfile := hc.file
    rw [hfree] at hfile
    cases hfile

/-- The record is replaced by one that a retry may work on. -/
theorem RetryStep.of_record (h : Retryable name source m) (htree : t.tree = m.tree)
    {produced : MeetingRecord} (hproduced : Eligible name t produced) (hsource : source.Of produced) :
    RetryStep name source m t := by
  have hcalm : Calm (fun _ => False) m.tree t.tree := by
    rw [htree]
    exact .refl _
  refine ⟨⟨⟨produced, hproduced, hsource⟩, ?_, ?_⟩, hcalm.keeps,
    fun _ _ hstored _ => hstored.of_calm hcalm not_false⟩
  · intro other mode bytes hnode
    obtain ⟨c, hc⟩ := h.receipts other mode bytes ((hcalm.receipts other not_false mode bytes).mp hnode)
    exact ⟨c, hc.of_calm hcalm not_false⟩
  · intro other other' c c' hc hc'
    exact h.single other other' c c' (h.stored_of_calm hcalm not_false hc)
      (h.stored_of_calm hcalm not_false hc')

end Invariant

/-! ## The programs -/

section Programs

variable {B : Type} [Platform B] {name : String} {source : CapturedDigests}
  {m t : MeetingDirectory B} {id : Uuid} {candidate : TranscriptRetryCandidate}
  {meeting : MeetingRecord}

omit [Platform B] in
theorem namedIn_receipt (id : Uuid) : NamedIn (operationDir id) (receiptPath id) where
  parent := rfl
  notAbove := by
    change receiptPath id ∉ [MeetingPath.entry ["transcript-retry"], .entry []]
    simp [receiptPath, receiptComponents]
  ne := by simp [receiptPath, receiptComponents, operationDir]

/-- Writing the decision: until it is there the candidate is pending, and from
then on it is decided. -/
theorem writeReceipt_meets (h : Retryable name source m)
    (hstored : StoredCandidate name source m id candidate)
    (hpending : candidate.state = .candidateAvailableForComparison) (nonce : Uuid)
    {state : TranscriptRetryState} (hstate : state ≠ .candidateAvailableForComparison) :
    Meets (MeetingDirectory.inTree (writeReceipt nonce { candidate with state })) m
      (fun t => RetryStep name source m t ∧ t.record = m.record)
      (fun _ t => (RetryStep name source m t ∧ t.record = m.record) ∧
        StoredCandidate name source t id { candidate with state })
      (fun _ t => RetryStep name source m t ∧ t.record = m.record) := by
  have hid := hstored.operationId
  subst hid
  have hother : receiptPath candidate.operationId ≠
      .temporary (receiptComponents candidate.operationId) nonce := nofun
  have htarget := durableReplace_target (B := B) (toVecPretty { candidate with state })
    (namedIn_receipt candidate.operationId) hother m.tree
  have hmoves : Moves (Frame fun p => p = receiptPath candidate.operationId ∨
      p = .temporary (receiptComponents candidate.operationId) nonce)
      (durableReplace (receiptPath candidate.operationId)
        (.temporary (receiptComponents candidate.operationId) nonce)
        (toVecPretty (B := B) { candidate with state })) :=
    durableReplace_moves _ (.inl rfl) (.inr rfl)
  have hcalm := (receipt_calm hmoves).meets (s := m.tree) Calm.refl fun _ h => h
  unfold MeetingDirectory.inTree writeReceipt
  refine Meets.zoom rfl (Meets.mapError ((htarget.and hcalm).mono (fun u hu => ?_)
    (fun _ u hu => ?_) fun _ u hu => ?_))
  · rcases hu.1 with hsame | hfile
    · exact ⟨.of_calm h rfl (hu.2.of_same hsame), rfl⟩
    · exact ⟨(RetryStep.of_decided (t := { m with tree := u }) h hstored hpending rfl hu.2 hstate
      hfile).1, rfl⟩
  · obtain ⟨hstep, hnew⟩ := RetryStep.of_decided (t := { m with tree := u }) h hstored hpending rfl
      hu.2 hstate hu.1
    exact ⟨⟨hstep, rfl⟩, hnew⟩
  · exact ⟨.of_calm h rfl (hu.2.of_same hu.1), rfl⟩

/-! ### The record -/

/-- A record that replaces another and points to nothing that was not checked. -/
theorem Eligible.replaced {meeting produced : MeetingRecord} (h : Eligible name m meeting)
    (hvalid : produced.Valid B name) (hretention : produced.retention = meeting.retention)
    (hlifecycle : MeetingRecord.HasTranscript produced.lifecycle)
    (hpending : produced.pendingStorageOperation = none)
    (hreferences : ∀ r ∈ produced.references, r ∈ meeting.references ∨
      verifyArtifactRef m.reader r = .ok ()) :
    Eligible name { m with record := some (toVecPretty produced) } produced where
  isPrivate := h.isPrivate
  loaded := loadMeeting_of_read ((MeetingRecord.validate_eq_ok B _ _).mpr hvalid) rfl
  identity := by
    have hidentity := hvalid.identity
    unfold MeetingRecord.validateIdentity at hidentity
    rw [refuseIf_eq_ok, not_or, not_not, not_not] at hidentity
    exact hidentity.2
  retained := hretention ▸ h.retained
  lifecycle := hlifecycle
  pending := hpending
  verified := by
    have hinterrupted : ∀ {l : MeetingLifecycle}, MeetingRecord.HasTranscript l →
        l ≠ .recoveredInterrupted := by
      rintro l (hl | hl | hl) <;> rw [hl] <;> decide
    have hold := (verifyRecordArtifacts_eq_ok (hinterrupted h.lifecycle)).mp h.verified
    refine (verifyRecordArtifacts_eq_ok (hinterrupted hlifecycle)).mpr fun r hr => ?_
    refine verifyArtifactRef_of_shallow (m := m)
      (t := { m with record := some (toVecPretty produced) }) (Keeps.refl _) (hvalid.place r hr) ?_
    rcases hreferences r hr with hmem | hverified
    · exact hold r hmem
    · exact hverified

/-- The three states of a replacement of the record. -/
theorem writeMeeting_meets {produced : MeetingRecord} (hvalid : produced.Valid B name)
    (h : Retryable name source m)
    (hproduced : Eligible name { m with record := some (toVecPretty produced) } produced)
    (hsource : source.Of produced) :
    Meets (Recovery.writeMeeting name produced) m
      (fun t => RetryStep name source m t ∧
        (t.record = m.record ∨ t.record = some (toVecPretty produced)))
      (fun _ t => RetryStep name source m t ∧
        t = { m with record := some (toVecPretty produced) })
      (fun _ _ => False) := by
  have hvalidate := (MeetingRecord.validate_eq_ok B _ _).mpr hvalid
  have hlast : RetryStep name source m { m with record := some (toVecPretty produced) } :=
    .of_record h rfl hproduced hsource
  refine Meets.of_eq_ok (Recovery.writeMeeting_of_valid hvalidate m) (fun t ht => ?_) ⟨hlast, rfl⟩
  simp only [List.mem_cons, List.not_mem_nil, or_false] at ht
  rcases ht with rfl | rfl | rfl
  · exact ⟨.of_calm h rfl (.refl _), .inl rfl⟩
  · exact ⟨.of_calm h rfl (.refl _), .inl rfl⟩
  · exact ⟨hlast, .inr rfl⟩

omit [Platform B] in
theorem references_promotedRecord {r : ArtifactRef}
    (h : r ∈ (promotedRecord meeting candidate).references) :
    r ∈ meeting.references ∨ r = candidate.candidateTranscript := by
  unfold MeetingRecord.references at h ⊢
  simp only [promotedRecord, audioReferences, List.mem_append, Option.toList_some,
    Option.toList_none, List.flatMap_nil, List.not_mem_nil, or_false, List.mem_singleton] at h ⊢
  tauto

/-! ### The decisions -/

/-- What `keep_current` and `promote_candidate` answer: a decision, which is the
one in the receipt.  A promotion is answered where the transcript of the meeting
is the candidate. -/
structure Decided (name : String) (source : CapturedDigests) (id : Uuid)
    (outcome : TranscriptRetryOutcome) (t : MeetingDirectory B) : Prop where
  terminal : outcome ≠ .candidateAvailableForComparison
  receipt : ∃ candidate, StoredCandidate name source t id candidate ∧ candidate.state = outcome ∧
    (outcome = .candidatePromoted → ∃ meeting, Eligible name t meeting ∧
      meeting.artifacts.currentTranscript = some candidate.candidateTranscript)

/-- A promoted candidate that passes the checks is the transcript. -/
theorem current_of_promoted (hvalid : validateReceipt name meeting candidate m = .ok ())
    (hstate : candidate.state = .candidatePromoted) :
    meeting.artifacts.currentTranscript = some candidate.candidateTranscript := by
  unfold validateReceipt at hvalid
  simp only [bind_eq_ok, orRefuse_eq_ok, hstate, if_true, refuseIf_eq_ok, not_not] at hvalid
  obtain ⟨_, -, _, -, current, hcurrent, _, -, _, -, _, -, _, heq, -⟩ := hvalid
  rw [hcurrent, heq]

theorem keepCurrentIn_meets (h : Retryable name source m) (nonce id : Uuid) :
    Meets (keepCurrentIn nonce name id) m
      (fun t => RetryStep name source m t ∧ t.record = m.record)
      (fun outcome t => (RetryStep name source m t ∧ t.record = m.record) ∧
        Decided name source id outcome t)
      (fun _ t => RetryStep name source m t ∧ t.record = m.record) := by
  have hsame : RetryStep name source m m ∧ m.record = m.record := ⟨.refl h, rfl⟩
  unfold keepCurrentIn
  refine Meets.bind_inspect (fun found hfound => ?_) fun _ _ => hsame
  obtain ⟨meeting, candidate⟩ := found
  obtain ⟨heligible, -, hload, hvalid⟩ := loadDecision_eq_ok.mp hfound
  have hstored := h.stored hload
  dsimp only
  split
  · rename_i hcase
    refine (writeReceipt_meets h hstored hcase.1 nonce (by nofun)).seq fun _ t ht => ?_
    exact Meets.pure ⟨ht.1, nofun, _, ht.2, rfl, fun _ =>
      ⟨meeting, heligible.of_shallow ht.1.1.keeps ht.1.2, hcase.2⟩⟩
  · split
    · rename_i hstate
      exact Meets.pure ⟨hsame, hstate, candidate, hstored, rfl, fun hpromoted =>
        ⟨meeting, heligible, current_of_promoted hvalid hpromoted⟩⟩
    · rename_i hstate
      refine (writeReceipt_meets h hstored (not_not.mp hstate) nonce (by nofun)).seq fun _ t ht => ?_
      exact Meets.pure ⟨ht.1, nofun, _, ht.2, rfl, nofun⟩

/-- The record a promotion can leave. -/
def PromotedBy (name : String) (source : CapturedDigests) (id : Uuid) (m t : MeetingDirectory B) :
    Prop :=
  ∃ meeting candidate, Eligible name m meeting ∧ StoredCandidate name source m id candidate ∧
    candidate.state = .candidateAvailableForComparison ∧
    meeting.artifacts.currentTranscript.map ArtifactRef.sha256 =
      some candidate.sourceTranscriptSha256 ∧
    t.record = some (toVecPretty (promotedRecord meeting candidate))

/-- A step of a promotion. -/
def PromoteStep (name : String) (source : CapturedDigests) (id : Uuid) (m t : MeetingDirectory B) :
    Prop :=
  RetryStep name source m t ∧ (t.record = m.record ∨ PromotedBy name source id m t)

/-- The decision of a promotion, from a state where the pointer is the candidate. -/
theorem writePromoted_meets {n : MeetingDirectory B} (nonce : Uuid)
    (hstep : PromoteStep name source id m n) (hstored : StoredCandidate name source n id candidate)
    (hpending : candidate.state = .candidateAvailableForComparison)
    (heligible : Eligible name n meeting)
    (hpointer : meeting.artifacts.currentTranscript = some candidate.candidateTranscript) :
    Meets (do
        MeetingDirectory.inTree (writeReceipt nonce { candidate with state := .candidatePromoted })
        pure TranscriptRetryState.candidatePromoted : Durable (MeetingDirectory B)
          TranscriptRetryError TranscriptRetryOutcome) n
      (PromoteStep name source id m)
      (fun outcome t => PromoteStep name source id m t ∧ Decided name source id outcome t)
      (fun _ => PromoteStep name source id m) := by
  have hfrom : ∀ t : MeetingDirectory B, RetryStep name source n t ∧ t.record = n.record →
      PromoteStep name source id m t := by
    intro t ht
    refine ⟨hstep.1.trans ht.1, ?_⟩
    unfold PromotedBy
    rw [ht.2]
    exact hstep.2
  refine Meets.bind ((writeReceipt_meets hstep.1.retryable hstored hpending nonce (by nofun)).mono
    hfrom (fun _ t ht => ?_) fun _ t ht => hfrom t ht)
  exact Meets.pure ⟨hfrom t ht.1, nofun, _, ht.2, rfl, fun _ =>
    ⟨meeting, heligible.of_shallow ht.1.1.keeps ht.1.2, hpointer⟩⟩

theorem promoteAvailable_meets [DecidableEq B] (h : Retryable name source m) (nonce : Uuid)
    (hfound : loadDecision name id m = .ok (meeting, candidate))
    (hpending : candidate.state = .candidateAvailableForComparison) :
    Meets (promoteAvailable nonce name meeting candidate) m (PromoteStep name source id m)
      (fun outcome t => PromoteStep name source id m t ∧ Decided name source id outcome t)
      (fun _ => PromoteStep name source id m) := by
  have hsame : PromoteStep name source id m m := ⟨.refl h, .inl rfl⟩
  obtain ⟨heligible, -, hload, -⟩ := loadDecision_eq_ok.mp hfound
  have hstored := h.stored hload
  unfold promoteAvailable
  split
  · rename_i hpointer
    exact writePromoted_meets nonce hsame hstored hpending heligible hpointer
  · refine Meets.bind_lift (fun current hcurrent => ?_) fun _ _ => hsame
    refine Meets.bind_lift (fun _ hfresh => ?_) fun _ _ => hsame
    rw [orRefuse_eq_ok] at hcurrent
    rw [refuseIf_eq_ok, not_not] at hfresh
    have hvalid := promotedRecord_valid hfound
    have hproduced : Eligible name
        { m with record := some (toVecPretty (promotedRecord meeting candidate)) }
        (promotedRecord meeting candidate) := by
      refine heligible.replaced hvalid rfl (.inr (.inl rfl)) heligible.pending
        fun r hr => ?_
      rcases references_promotedRecord hr with hold | rfl
      · exact .inl hold
      · exact .inr hstored.verified
    obtain ⟨found, hfound', hsource⟩ := h.eligible
    have hsame' : found = meeting := Except.ok.inj (hfound'.loaded.symm.trans heligible.loaded)
    subst hsame'
    have hpromoted : ∀ t : MeetingDirectory B,
        t.record = some (toVecPretty (promotedRecord found candidate)) →
          PromotedBy name source id m t := fun t ht =>
      ⟨found, candidate, heligible, hstored, hpending, by rw [hcurrent, Option.map_some, hfresh], ht⟩
    refine Meets.bind ((Meets.mapError (E := fun _ _ => False) (writeMeeting_meets hvalid h hproduced
      ⟨hsource.session, hsource.microphone, hsource.system⟩)).mono (fun t ht => ?_)
      (fun _ t ht => ?_) fun _ _ hfalse => ?_)
    · exact ⟨ht.1, ht.2.imp_right (hpromoted t)⟩
    · obtain ⟨hstep, rfl⟩ := ht
      refine writePromoted_meets nonce ⟨hstep, .inr (hpromoted _ rfl)⟩ ?_ hpending hproduced rfl
      have hcalm : Calm (fun _ => False) m.tree m.tree := Calm.refl m.tree
      exact hstored.of_calm hcalm not_false
    · exact False.elim hfalse

theorem promoteCandidateIn_meets [DecidableEq B] (h : Retryable name source m) (nonce id : Uuid) :
    Meets (promoteCandidateIn nonce name id) m (PromoteStep name source id m)
      (fun outcome t => PromoteStep name source id m t ∧ Decided name source id outcome t)
      (fun _ => PromoteStep name source id m) := by
  have hsame : PromoteStep name source id m m := ⟨.refl h, .inl rfl⟩
  unfold promoteCandidateIn
  refine Meets.bind_inspect (fun found hfound => ?_) fun _ _ => hsame
  obtain ⟨meeting, candidate⟩ := found
  obtain ⟨heligible, -, hload, -⟩ := loadDecision_eq_ok.mp hfound
  have hstored := h.stored hload
  dsimp only
  split
  · rename_i hstate
    exact Meets.pure ⟨hsame, nofun, candidate, hstored, hstate, nofun⟩
  · rename_i hstate
    refine Meets.bind_lift (fun _ hcurrent => ?_) fun _ _ => hsame
    rw [refuseIf_eq_ok, not_not] at hcurrent
    exact Meets.pure ⟨hsame, nofun, candidate, hstored, hstate, fun _ =>
      ⟨meeting, heligible, hcurrent⟩⟩
  · rename_i hstate
    exact promoteAvailable_meets h nonce hfound hstate

end Programs

end TranscriptRetry

end YawnApp.SessionCore
