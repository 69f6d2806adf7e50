import YawnApp.SessionCore.RestorationRecovery

set_option autoImplicit false

/-!
# Restorations leave a chain that is accepted

Whoever publishes a view has inspected its chain just before, and nothing that
a restoration does afterwards removes a file.  So once the chain of a meeting's
current transcript was accepted, it is accepted after any number of
restorations, each over the same base.  What a reader of the transcript and the
next restoration start with is accepted as well.
-/

namespace YawnApp.SessionCore

open YawnApp.Foundation

variable {B : Type} [Platform B] [DecidableEq B] {read : String → Except TranscriptArtifactError B}

/-! ## What a reader of the transcript starts with -/

inductive TranscriptProjectionError where
  | reference (e : MeetingError)
  | read (e : MeetingError)
  | changedWhileOpening
  | chain (e : TranscriptArtifactError)
deriving DecidableEq

/-- `resolve_stored_transcript_primed`: the head is served from bytes that were
read already.  It is read once, since a second visit is refused as a cycle. -/
def resolveStoredTranscriptPrimed (read : Reader B) (meetingId : Uuid) (transcriptSha256 : String)
    (headBytes : B) : Except TranscriptArtifactError (InspectedTranscriptRevision × B) :=
  inspectRevisionChain (fun digest =>
    if digest = transcriptSha256 then .ok headBytes else readRevision read digest)
    meetingId transcriptSha256

/-- Whether bytes are a view, as `project_current_transcript` tells. -/
def isTranscriptView (bytes : B) : Bool :=
  ((valueFromSlice bytes).bind fun document => (document.get "schema").bind Value.asStr) =
    some "transcript-view/1"

/-- `load_transcript_projection` up to the parse of the base: the bytes that are
parsed and the turns shown although they are withheld. -/
def transcriptProjectionSource (read : Reader B) (meetingId : Uuid) (reference : ArtifactRef) :
    Except TranscriptProjectionError (B × Finset UInt32) := do
  (verifyArtifactRef read reference).mapError .reference
  let bytes ← (readBounded read reference.relativePath maxTranscriptRevisionBytes).mapError .read
  refuseIf (Platform.sha256 bytes ≠ reference.sha256) .changedWhileOpening
  if isTranscriptView bytes then
    let (inspection, baseBytes) ←
      (resolveStoredTranscriptPrimed read meetingId reference.sha256 bytes).mapError .chain
    return (baseBytes, inspection.restoredSourceTurnIndices.toFinset)
  else return (bytes, ∅)

theorem isTranscriptView_of_node {meetingId : Uuid} {current : String} {bytes : B}
    {view : TranscriptView} (h : readRevisionNode read meetingId current = .ok (bytes, .inl view)) :
    isTranscriptView bytes = true := by
  unfold readRevisionNode at h
  simp only [bind_eq_ok, orRefuse_eq_ok] at h
  obtain ⟨found, -, _, -, document, hdocument, hnode⟩ := h
  split at hnode
  · rename_i hschema
    simp only [bind_eq_ok] at hnode
    obtain ⟨_, -, _, -, _, -, heq⟩ := hnode
    cases heq
    unfold isTranscriptView
    rw [hdocument, Option.bind_some, hschema]
    decide
  · simp only [bind_eq_ok] at hnode
    obtain ⟨_, -, heq⟩ := hnode
    cases heq

/-! ## One base under every view -/

/-- Two walks from one revision end at one base, whatever they passed before. -/
theorem walkRevisions_base_unique {meetingId : Uuid} :
    ∀ {remaining remaining' : Nat} {current : String} {views views' : List (String × TranscriptView)}
      {total total' : Nat} {chain chain' : WalkedChain B},
      walkRevisions read meetingId remaining current views total = .ok chain →
      walkRevisions read meetingId remaining' current views' total' = .ok chain' →
      chain'.baseDigest = chain.baseDigest ∧ chain'.withheld = chain.withheld ∧
        chain'.baseBytes = chain.baseBytes := by
  intro remaining
  induction remaining with
  | zero =>
    intro remaining' current views views' total total' chain chain' h _
    unfold walkRevisions at h
    cases h
  | succ remaining ih =>
    intro remaining' current views views' total total' chain chain' h h'
    cases remaining' with
    | zero =>
      unfold walkRevisions at h'
      cases h'
    | succ =>
      unfold walkRevisions at h h'
      simp only [bind_eq_ok] at h h'
      obtain ⟨-, -, ⟨bytes, node⟩, hnode, hrest⟩ := h
      obtain ⟨-, -, ⟨bytes', node'⟩, hnode', hrest'⟩ := h'
      rw [hnode, Except.ok.injEq, Prod.mk.injEq] at hnode'
      obtain ⟨rfl, rfl⟩ := hnode'
      cases node with
      | inl =>
        simp only [bind_eq_ok] at hrest hrest'
        obtain ⟨-, -, hwalk⟩ := hrest
        obtain ⟨-, -, hwalk'⟩ := hrest'
        exact ih hwalk hwalk'
      | inr =>
        cases hrest
        cases hrest'
        exact ⟨rfl, rfl, rfl⟩

/-- A walk that passed a view goes on at the view's parent. -/
theorem walkRevisions_parent {meetingId : Uuid} {remaining total : Nat} {current : String}
    {chain : WalkedChain B} {view : TranscriptView}
    (h : walkRevisions read meetingId remaining current [] total = .ok chain)
    (hhead : chain.views.head?.map Prod.snd = some view) :
    ∃ remaining' total', walkRevisions read meetingId remaining' view.parentTranscriptSha256
      [(current, view)] total' = .ok chain := by
  cases remaining with
  | zero =>
    unfold walkRevisions at h
    cases h
  | succ =>
    unfold walkRevisions at h
    simp only [bind_eq_ok] at h
    obtain ⟨-, -, ⟨bytes, node⟩, -, hrest⟩ := h
    cases node with
    | inr =>
      cases hrest
      simp at hhead
    | inl found =>
      simp only [bind_eq_ok] at hrest
      obtain ⟨-, -, hwalk⟩ := hrest
      obtain ⟨rest, hviews⟩ := walkRevisions_views hwalk
      have hfound : found = view := by
        rw [hviews] at hhead
        simpa using hhead
      subst hfound
      exact ⟨_, _, hwalk⟩

/-- A base transcript: its digest, bytes and withheld turns. -/
structure BaseTranscript (B : Type) where
  digest : String
  bytes : B
  withheld : Finset UInt32

/-- A chain that is accepted and ends at a base. -/
structure ChainOver (read : String → Except TranscriptArtifactError B) (meetingId : Uuid)
    (base : BaseTranscript B) (revision : InspectedTranscriptRevision) : Prop where
  accepted : inspectRevisionChain read meetingId revision.digest = .ok (revision, base.bytes)
  digest : revision.baseTranscriptSha256 = base.digest
  withheld : revision.withheldSourceTurnIndices = base.withheld

variable {revision : InspectedTranscriptRevision}

/-- The walk and the check behind an accepted chain. -/
theorem inspectRevisionChain_eq_ok {meetingId : Uuid} {transcriptSha256 : String} {bytes : B}
    (h : inspectRevisionChain read meetingId transcriptSha256 = .ok (revision, bytes)) :
    ∃ chain, walkRevisions read meetingId maxTranscriptViewDepth transcriptSha256 [] 0 = .ok chain ∧
      checkSuccessors chain.baseDigest chain.withheld chain.views.reverse chain.baseDigest [] =
        .ok revision.restoredSourceTurnIndices ∧
      revision.digest = transcriptSha256 ∧ revision.baseTranscriptSha256 = chain.baseDigest ∧
      revision.headView = chain.views.head?.map Prod.snd ∧
      revision.withheldSourceTurnIndices = chain.withheld ∧ bytes = chain.baseBytes := by
  unfold inspectRevisionChain at h
  simp only [bind_eq_ok] at h
  obtain ⟨-, -, chain, hwalk, restored, hcheck, heq⟩ := h
  cases heq
  exact ⟨chain, hwalk, hcheck, rfl, rfl, rfl, rfl, rfl⟩

/-- A view whose parent stands over a base stands over that base too. -/
theorem ChainOver.of_successor {meetingId : Uuid} {base : BaseTranscript B}
    {source successor : InspectedTranscriptRevision} {view : TranscriptView} {bytes : B}
    (h : ChainOver read meetingId base source)
    (hsuccessor : inspectRevisionChain read meetingId successor.digest = .ok (successor, bytes))
    (hview : successor.headView = some view) (hparent : view.parentTranscriptSha256 = source.digest) :
    ChainOver read meetingId base successor := by
  obtain ⟨below, hbelow, -, -, hdigest, -, hwithheld, hbytes⟩ := inspectRevisionChain_eq_ok h.accepted
  obtain ⟨chain, hwalk, -, -, hdigest', hhead, hwithheld', hbytes'⟩ :=
    inspectRevisionChain_eq_ok hsuccessor
  obtain ⟨remaining, total, hrest⟩ := walkRevisions_parent hwalk (hhead.symm.trans hview)
  rw [hparent] at hrest
  obtain ⟨hsame, hsame', hsame''⟩ := walkRevisions_base_unique hbelow hrest
  refine ⟨?_, ?_, ?_⟩
  · rw [hsuccessor, hbytes', hsame'', ← hbytes]
  · rw [hdigest', hsame, ← hdigest, h.digest]
  · rw [hwithheld', hsame', ← hwithheld, h.withheld]

/-- Bytes that can still be read keep a chain. -/
theorem ChainOver.mono {read' : String → Except TranscriptArtifactError B} {meetingId : Uuid}
    {base : BaseTranscript B} (h : ChainOver read meetingId base revision)
    (hread : ∀ digest bytes, read digest = .ok bytes → read' digest = .ok bytes) :
    ChainOver read' meetingId base revision :=
  ⟨inspectRevisionChain_mono hread h.accepted, h.digest, h.withheld⟩

/-- Artifacts that are kept keep a chain. -/
theorem ChainOver.keeps {old new : Files B} {meetingId : Uuid} {base : BaseTranscript B}
    (hkeeps : old.KeepsArtifacts new)
    (h : ChainOver (readRevision old.reader) meetingId base revision) :
    ChainOver (readRevision new.reader) meetingId base revision := by
  apply h.mono
  intro digest bytes hread
  unfold readRevision readBounded at hread ⊢
  simp only [bind_eq_ok, mapError_eq_ok, Files.reader_eq_ok] at hread ⊢
  obtain ⟨u, hdigest, found, ⟨found', hfound, hrest⟩, hsame⟩ := hread
  exact ⟨u, hdigest, found, ⟨found', hkeeps _ (revisionPath_ne_record digest) _ hfound, hrest⟩,
    hsame⟩

/-- Every turn a chain shows is one its base withholds. -/
theorem ChainOver.restored_subset {read : Reader B} {meetingId : Uuid} {base : BaseTranscript B}
    (h : ChainOver (readRevision read) meetingId base revision) :
    revision.restoredSourceTurnIndices.toFinset ⊆ base.withheld := by
  have hinspected : inspectRevision read meetingId revision.digest = .ok revision := by
    unfold inspectRevision
    rw [h.accepted]
    rfl
  have hsound := inspectRevision_sound hinspected
  rw [← h.withheld]
  cases hhead : revision.headView with
  | none =>
    rw [hsound.restoredOfBase hhead]
    exact Finset.empty_subset _
  | some view =>
    obtain ⟨-, -, -, -, -, hshown, hsubset⟩ := hsound.view view hhead
    rw [hshown]
    exact hsubset

/-! ## A meeting that can be shown and restored further -/

open TranscriptRestorationCoordinator

/-- The record loads, its transcript stands over the base, and the lifecycle
accepts a restoration. -/
structure Restorable (files : Files B) (meetingId : Uuid) (base : BaseTranscript B)
    (meeting : MeetingRecord) (revision : InspectedTranscriptRevision) : Prop where
  record : loadAndVerifyMeeting files.reader meetingId = .ok meeting
  pending : meeting.pendingStorageOperation = none
  identity : meeting.meetingId = meetingId.text
  current : meeting.artifacts.currentTranscript =
    some ⟨revisionPath revision.digest, revision.digest⟩
  lifecycle : lifecycleAccepts meeting.lifecycle meeting.artifacts.currentNote = true
  chain : ChainOver (readRevision files.reader) meetingId base revision

namespace Restorable

variable {files new : Files B} {meetingId : Uuid} {base : BaseTranscript B}
  {meeting : MeetingRecord} {revision : InspectedTranscriptRevision}

theorem loaded (h : Restorable files meetingId base meeting revision) :
    loadMeeting files.reader meetingId.text = .ok meeting ∧
      verifyRecordArtifacts files.reader meeting = .ok () ∧
      meeting.validate B meetingId.text = .ok () := by
  have hload := h.record
  unfold loadAndVerifyMeeting at hload
  simp only [bind_eq_ok, mapError_eq_ok] at hload
  obtain ⟨found, hfound, _, hartifacts, heq⟩ := hload
  cases heq
  exact ⟨hfound, hartifacts, loadMeeting_eq_ok hfound⟩

theorem not_interrupted (h : Restorable files meetingId base meeting revision) :
    meeting.lifecycle ≠ .recoveredInterrupted := by
  rcases lifecycleAccepts_cases h.lifecycle with hl | hl | hl <;> rw [hl] <;> decide

/-- Files that are added change nothing. -/
theorem added (h : Restorable files meetingId base meeting revision) (hadds : files.Extends new) :
    Restorable new meetingId base meeting revision := by
  obtain ⟨hload, hartifacts, hvalid⟩ := h.loaded
  have hkeeps := hadds.keepsArtifacts
  refine ⟨?_, h.pending, h.identity, h.current, h.lifecycle, h.chain.keeps hkeeps⟩
  obtain ⟨bytes, hbytes⟩ := Option.isSome_iff_exists.mp (isSome_of_loadMeeting hload)
  have hrecord : new "meeting.json" = files "meeting.json" := by
    rw [hbytes]
    exact hadds _ _ hbytes
  unfold loadAndVerifyMeeting
  rw [loadMeeting_congr hrecord, hload, mapError_ok, ok_bind,
    verifyRecordArtifacts_mono ((MeetingRecord.validate_eq_ok B _ _).mp hvalid) h.not_interrupted
      hkeeps hartifacts]
  rfl

/-- A prepared publication publishes the result in the meeting, whose transcript is
the source of the request. -/
theorem of_prepareApply {read : Reader B} {request : TranscriptRestorationRequest}
    {result : TranscriptRestorationResult} {next : MeetingRecord}
    (hload : loadAndVerifyMeeting read request.meetingId = .ok meeting)
    (h : prepareApply read request result = .ok next) :
    next = publishedMeeting meeting result ∧ inspectStoredResult read request result = .ok () ∧
      ∃ current, meeting.artifacts.currentTranscript = some current ∧
        current.sha256 = request.sourceTranscriptSha256 := by
  unfold prepareApply requireCurrentTranscript at h
  simp only [bind_eq_ok, orRefuse_eq_ok] at h
  obtain ⟨found, hfound, _, -, current, hcurrent, recovery, hclassify, _, hrecovery, _, hstored,
    heq⟩ := h
  rw [hload, Except.ok.injEq] at hfound
  subst hfound
  cases heq
  rw [refuseIf_eq_ok, not_not] at hrecovery
  subst hrecovery
  refine ⟨rfl, hstored, current, hcurrent, ?_⟩
  unfold classify classifyRestorationRecovery at hclassify
  simp only [mapError_eq_ok, bind_eq_ok] at hclassify
  obtain ⟨_, -, _, -, _, -, _, -, hbranch⟩ := hclassify
  split at hbranch
  · rename_i hsource
    unfold sourceStateMatches at hsource
    simp only [Bool.and_eq_true, beq_iff_eq] at hsource
    exact hsource.1
  · split at hbranch <;> cases hbranch

/-- A result whose publication is prepared for this meeting is published over
the same base. -/
theorem published {request : TranscriptRestorationRequest} {result : TranscriptRestorationResult}
    {next : MeetingRecord} (h : Restorable files request.meetingId base meeting revision)
    (hprepare : prepareApply files.reader request result = .ok next) :
    ∃ shown, Restorable (files.put "meeting.json" (toVecPretty next)) request.meetingId base next
      shown := by
  obtain ⟨hload, hartifacts, hvalid⟩ := h.loaded
  obtain ⟨rfl, hstored, current, hcurrent, hsource⟩ := of_prepareApply h.record hprepare
  rw [h.current, Option.some.injEq] at hcurrent
  subst hcurrent
  have hresult := inspectStoredResult_eq_ok hstored
  have hkeeps := Files.keepsArtifacts_put files (toVecPretty (publishedMeeting meeting result))
  -- the successor was inspected, and its parent is the current transcript
  unfold inspectStoredResult at hstored
  simp only [bind_eq_ok, mapError_eq_ok, orRefuse_eq_ok, refuseIf_eq_ok, not_or, not_not] at hstored
  obtain ⟨_, _, successor, hsuccessor, _, ⟨_, hdigest⟩, view, hview, _, hjoin, -⟩ := hstored
  obtain ⟨-, -, -, hparent, -, -⟩ := validateRestorationJoin_eq_ok hjoin
  unfold inspectRevision at hsuccessor
  rw [map_eq_ok] at hsuccessor
  obtain ⟨⟨found, bytes⟩, hchain, rfl⟩ := hsuccessor
  have hover : ChainOver (readRevision files.reader) request.meetingId base found :=
    h.chain.of_successor (hdigest.symm ▸ hchain) hview (hparent.trans hsource.symm)
  -- the new record is valid and what it points to is there
  have hvalid' := publishedMeeting_valid hvalid h.pending h.lifecycle hresult.validResult
  have hpublished : verifyRecordArtifacts (files.put "meeting.json"
      (toVecPretty (publishedMeeting meeting result))).reader (publishedMeeting meeting result) =
        .ok () := by
    rw [verifyRecordArtifacts_eq_ok (by simp [publishedMeeting])]
    rw [verifyRecordArtifacts_eq_ok h.not_interrupted] at hartifacts
    intro r hr
    have hpath := ((MeetingRecord.validate_eq_ok B _ _).mp hvalid').path_ne r hr
    apply verifyArtifactRef_of_keeps hkeeps.reader hpath
    rcases references_publishedMeeting hr with hr | rfl
    · exact hartifacts r hr
    · exact hresult.view
  refine ⟨found, ?_, h.pending, h.identity, ?_, rfl, hover.keeps hkeeps⟩
  · unfold loadAndVerifyMeeting
    rw [loadMeeting_of_written hvalid' (Files.put_self _ _ _), mapError_ok, ok_bind, hpublished]
    rfl
  · have hnamed : result.view.relativePath = revisionPath result.view.sha256 := by
      have hvalidResult := hresult.validResult
      unfold TranscriptRestorationResult.validate at hvalidResult
      simp only [check_bind_eq_ok, mapError_eq_ok] at hvalidResult
      have hview := hvalidResult.2.2.2.1
      unfold ArtifactRef.validateDigestNamed validateRef at hview
      simp only [check_bind_eq_ok, refuseIf_eq_ok, not_not] at hview
      rw [hview.2.1, revisionPath_eq]
    rw [hdigest, ← hnamed]
    rfl

end Restorable

/-! ## What the durable steps of a restoration keep -/

/-- A relation between libraries that the durable steps of every restoration
respect: work of the operation store, files that are added, and records whose
publication was prepared. -/
structure Library.PublicationFrame (R : Library B → Library B → Prop) : Prop where
  refl : ∀ lib, R lib lib
  trans : ∀ a b c, R a b → R b c → R a c
  operations : ∀ (lib : Library B) operations, R lib { lib with operations }
  added : ∀ (lib : Library B) id files, (lib.meetings id).Extends files → R lib (lib.setMeeting id files)
  published : ∀ (lib : Library B) request result next,
    prepareApply (lib.reader request.meetingId) request result = .ok next →
    R lib (lib.setMeeting request.meetingId
      ((lib.meetings request.meetingId).put "meeting.json" (toVecPretty next)))

namespace Library.PublicationFrame

variable {R : Library B → Library B → Prop} {rt : RestorationRuntime B}
  {request : TranscriptRestorationRequest}

theorem bind (hR : Library.PublicationFrame R) {ε α β : Type} {m : Durable (Library B) ε α}
    {k : α → Durable (Library B) ε β} (hm : Moves R m) (hk : ∀ a, Moves R (k a)) :
    Moves R (m >>= k) := Moves.bind hR.refl hR.trans hm hk

theorem updateOperations (hR : Library.PublicationFrame R)
    (change : Receipts → Except OperationStoreError Receipts) :
    Moves R (Library.updateOperations change) := by
  apply Moves.step
  intro lib t ht
  rw [map_eq_ok] at ht
  obtain ⟨new, -, rfl⟩ := ht
  exact hR.operations lib new

theorem worker (hR : Library.PublicationFrame R) (hadds : rt.OnlyAddsFiles)
    (id : Uuid) (arguments : TranscriptRestoreWorkerArgs) :
    Moves R (Library.inMeeting id (rt.worker arguments)) :=
  Moves.zoom_of (R := R) (S := Files.Extends) (fun files t ht => hadds arguments files t ht)
    fun lib files hfiles => hR.added lib id files hfiles

theorem writeTerminalCommit (hR : Library.PublicationFrame R)
    (result : TranscriptRestorationResult) :
    Moves R (TranscriptRestorationCoordinator.writeTerminalCommit rt request result) :=
  hR.bind (Moves.inspect _) fun _ => Moves.mapError (hR.updateOperations _)

theorem applyResult (hR : Library.PublicationFrame R) (result : TranscriptRestorationResult) :
    Moves R (TranscriptRestorationCoordinator.applyResult rt request result) := by
  apply Moves.bind_inspect
  intro lib next hprepare
  refine Meets.crash (Q := fun _ t => R lib t) (E := fun _ t => R lib t) ?_
  refine Meets.bind (Meets.mapError (Meets.step (fun t ht => ?_) fun _ _ => hR.refl lib))
  rw [bind_eq_ok] at ht
  obtain ⟨bytes, hbytes, heq⟩ := ht
  cases heq
  unfold meetingBytes at hbytes
  rw [bind_eq_ok] at hbytes
  obtain ⟨_, -, heq⟩ := hbytes
  cases heq
  have hpublished := hR.published lib request result next hprepare
  exact ⟨hpublished, (hR.writeTerminalCommit result).meets hR.refl fun u hu =>
    hR.trans _ _ _ hpublished hu⟩

theorem executeRequest (hR : Library.PublicationFrame R) (hadds : rt.OnlyAddsFiles) :
    Moves R (TranscriptRestorationCoordinator.executeRequest rt request) := by
  refine hR.bind (Moves.inspect _) fun (source, arguments) => ?_
  apply hR.bind (Moves.mapError (hR.worker hadds _ _))
  intro digests
  apply hR.bind (Moves.inspect _)
  intro result
  apply hR.bind (Moves.mapError (hR.updateOperations _))
  intro _
  exact hR.applyResult result

theorem restoreWithheldTurn (hR : Library.PublicationFrame R) (hadds : rt.OnlyAddsFiles)
    (arguments : RestoreWithheldTurnUiArgs) :
    Moves R (TranscriptRestorationCoordinator.restoreWithheldTurn rt arguments) := by
  apply hR.bind (Moves.inspect _)
  intro request
  apply hR.bind (Moves.mapError (hR.updateOperations _))
  intro _
  exact hR.bind (hR.executeRequest hadds) fun _ => Moves.pure _

theorem resumeRequest (hR : Library.PublicationFrame R) (hadds : rt.OnlyAddsFiles)
    (stored : Option StoredOperationResult) :
    Moves R (TranscriptRestorationCoordinator.resumeRequest rt request stored) := by
  match stored with
  | none =>
    apply hR.bind (Moves.inspect _)
    intro _
    exact hR.bind (hR.executeRequest hadds) fun _ => Moves.pure _
  | some (.noteGeneration _) => exact hR.bind (Moves.inspect _) fun _ => Moves.fail _
  | some (.restoration result) =>
    apply hR.bind (Moves.inspect _)
    intro recovery
    cases recovery with
    | applyValidatedResult => exact hR.bind (hR.applyResult result) fun _ => Moves.pure _
    | writeMissingCommit =>
      exact hR.bind (hR.writeTerminalCommit result) fun _ => Moves.pure _
    | retryRequest => exact Moves.fail _

theorem recoverMeeting (hR : Library.PublicationFrame R) (hadds : rt.OnlyAddsFiles)
    (meetingId : Uuid) :
    Moves R (TranscriptRestorationCoordinator.recoverMeeting rt meetingId) := by
  unfold TranscriptRestorationCoordinator.recoverMeeting
  split
  · exact Moves.pure _
  · apply hR.bind (Moves.inspect _)
    intro pending
    split
    · split
      · exact Moves.pure _
      · apply hR.bind (Moves.attempt (hR.resumeRequest hadds _))
        intro outcome
        cases outcome <;> exact Moves.pure _
    · exact Moves.pure _

theorem recoverIncomplete (hR : Library.PublicationFrame R) (hadds : rt.OnlyAddsFiles) :
    Moves R (TranscriptRestorationCoordinator.recoverIncomplete rt) :=
  hR.bind (Moves.inspect _) fun meetings =>
    Moves.forEach hR.refl hR.trans (fun meetingId => hR.recoverMeeting hadds meetingId) meetings

end Library.PublicationFrame

/-- The meeting's transcript stands over the base and can be restored further. -/
def Library.RestorableOver (lib : Library B) (meetingId : Uuid) (base : BaseTranscript B) : Prop :=
  ∃ meeting revision, Restorable (lib.meetings meetingId) meetingId base meeting revision

/-- No step of any restoration takes that away. -/
theorem Library.restorableOver_frame (meetingId : Uuid) (base : BaseTranscript B) :
    Library.PublicationFrame (B := B) fun old new =>
      old.RestorableOver meetingId base → new.RestorableOver meetingId base where
  refl _ h := h
  trans _ _ _ hab hbc h := hbc (hab h)
  operations _ _ h := h
  added lib id files hadds h := by
    by_cases hid : meetingId = id
    · subst hid
      obtain ⟨meeting, revision, h⟩ := h
      refine ⟨meeting, revision, ?_⟩
      rw [setMeeting_meetings_self]
      exact h.added hadds
    · unfold Library.RestorableOver
      rw [lib.setMeeting_meetings_of_ne files hid]
      exact h
  published lib request result next hprepare h := by
    by_cases hid : meetingId = request.meetingId
    · subst hid
      obtain ⟨meeting, revision, h⟩ := h
      obtain ⟨shown, hshown⟩ := h.published hprepare
      refine ⟨next, shown, ?_⟩
      rw [setMeeting_meetings_self]
      exact hshown
    · unfold Library.RestorableOver
      rw [lib.setMeeting_meetings_of_ne _ hid]
      exact h

/-! ## What such a meeting offers -/

namespace Restorable

variable {files : Files B} {meetingId : Uuid} {base : BaseTranscript B}
  {meeting : MeetingRecord} {revision : InspectedTranscriptRevision}

theorem inspected (h : Restorable files meetingId base meeting revision) :
    inspectRevision files.reader meetingId revision.digest = .ok revision := by
  unfold inspectRevision
  rw [h.chain.accepted]
  rfl

/-- Every turn that is still withheld is one the next restoration accepts. -/
theorem requireCurrentSource (h : Restorable files meetingId base meeting revision)
    {turn : UInt32} (hturn : turn ∈ base.withheld)
    (hrestored : turn ∉ revision.restoredSourceTurnIndices) :
    TranscriptRestorationCoordinator.requireCurrentSource files.reader meeting meetingId
      revision.digest turn none = .ok revision := by
  unfold TranscriptRestorationCoordinator.requireCurrentSource requireNoPendingStorage
    requireCurrentTranscript
  rw [h.current, h.inspected, mapError_ok]
  simp only [h.pending, h.identity, h.lifecycle, h.chain.withheld, hturn, hrestored, orRefuse_some,
    checkSome_none, ok_bind, ne_eq, not_true_eq_false, or_self, Option.isSome_none,
    Bool.false_eq_true, refuseIf_of_not, not_false_eq_true]
  rfl

/-- The bytes of the current transcript are verified, read and, if they are a
view, resolved down to the base. -/
theorem transcriptProjectionSource (h : Restorable files meetingId base meeting revision) :
    SessionCore.transcriptProjectionSource files.reader meetingId
      ⟨revisionPath revision.digest, revision.digest⟩ =
        .ok (base.bytes, revision.restoredSourceTurnIndices.toFinset) := by
  obtain ⟨-, hartifacts, -⟩ := h.loaded
  rw [verifyRecordArtifacts_eq_ok h.not_interrupted] at hartifacts
  have hreference := hartifacts ⟨revisionPath revision.digest, revision.digest⟩ (by
    simp [MeetingRecord.references, h.current])
  obtain ⟨bytes, hread⟩ := (inspectRevision_sound h.inspected).stored
  have hrevision := hread
  unfold readRevision at hread
  simp only [bind_eq_ok, mapError_eq_ok] at hread
  obtain ⟨_, -, found, hbytes, _, hdigest, heq⟩ := hread
  cases heq
  unfold SessionCore.transcriptProjectionSource
  rw [hreference, mapError_ok, ok_bind, hbytes, mapError_ok, ok_bind,
    refuseIf_of_not (by simpa using hdigest), ok_bind]
  split
  · -- a view is resolved by the walk that accepted it, its head served from memory
    have hresolved : resolveStoredTranscriptPrimed files.reader meetingId revision.digest bytes =
        .ok (revision, base.bytes) := by
      refine inspectRevisionChain_mono (fun digest read hdigest => ?_) h.chain.accepted
      split
      · rename_i hsame
        rw [hsame, hrevision] at hdigest
        exact hdigest
      · exact hdigest
    rw [hresolved, mapError_ok, ok_bind]
    rfl
  · -- anything else the walk took for the base
    rename_i hview
    obtain ⟨chain, hwalk, hcheck, -, -, -, -, hbase⟩ :=
      inspectRevisionChain_eq_ok h.chain.accepted
    obtain ⟨n, hn⟩ : ∃ n, maxTranscriptViewDepth = n + 1 := ⟨19999, rfl⟩
    rw [hn] at hwalk
    unfold walkRevisions at hwalk
    simp only [bind_eq_ok] at hwalk
    obtain ⟨-, -, ⟨head, node⟩, hnode, hrest⟩ := hwalk
    have hhead : head = bytes := by
      have hsame := (readRevisionNode_read hnode).1
      rw [hrevision, Except.ok.injEq] at hsame
      exact hsame.symm
    subst hhead
    cases node with
    | inl => exact absurd (isTranscriptView_of_node hnode) hview
    | inr =>
      cases hrest
      simp only [List.reverse_nil, checkSuccessors, Except.ok.injEq] at hcheck
      rw [← hcheck, hbase]
      rfl

end Restorable

variable {lib : Library B}

/-- The meeting an admitted restoration found can be shown and restored. -/
theorem restorableOver_of_admitRequest {rt : RestorationRuntime B}
    {arguments : RestoreWithheldTurnUiArgs} {request : TranscriptRestorationRequest}
    (h : admitRequest rt arguments lib = .ok request) :
    ∃ base, lib.RestorableOver arguments.meetingId base := by
  unfold admitRequest at h
  simp only [bind_eq_ok, mapError_eq_ok] at h
  obtain ⟨_, -, _, -, _, -, meeting, hload, source, hsource, -⟩ := h
  unfold TranscriptRestorationCoordinator.requireCurrentSource requireNoPendingStorage
    requireCurrentTranscript at hsource
  simp only [bind_eq_ok, mapError_eq_ok, refuseIf_eq_ok, orRefuse_eq_ok, not_or, not_not] at hsource
  obtain ⟨_, hpending, _, hid, ⟨path, sha⟩, hcurrent, _, ⟨hsha, hpath⟩, _, hlifecycle, _, -,
    found, hfound, _, hdigest, -⟩ := hsource
  simp only at hsha hpath
  subst hsha hpath
  unfold inspectRevision at hfound
  rw [map_eq_ok] at hfound
  obtain ⟨⟨revision, bytes⟩, hchain, rfl⟩ := hfound
  refine ⟨⟨revision.baseTranscriptSha256, bytes, revision.withheldSourceTurnIndices⟩, meeting,
    revision, hload, by simpa using hpending, hid, ?_, hlifecycle, ?_, rfl, rfl⟩
  · rw [hdigest]
    exact hcurrent
  · rw [hdigest]
    exact hchain

/-- A note of such a meeting is one of its current transcript. -/
theorem Restorable.validateNoteOf {files : Files B} {meetingId : Uuid} {base : BaseTranscript B}
    {meeting : MeetingRecord} (h : Restorable files meetingId base meeting revision)
    {note : NoteRevisionRef} (hnote : meeting.artifacts.currentNote = some note) (detail : String) :
    validateNoteOf note revision.digest detail = .ok () := by
  obtain ⟨-, -, hvalid⟩ := h.loaded
  rw [MeetingRecord.validate_eq_ok] at hvalid
  have hreferences := hvalid.references
  have hlifecycle := hvalid.lifecycle
  have haccepts := h.lifecycle
  unfold MeetingRecord.validateReferences at hreferences
  simp only [check_bind_eq_ok, hnote, checkSome_some] at hreferences
  have hready : meeting.lifecycle = .ready := by
    rw [hnote] at haccepts
    cases hl : meeting.lifecycle <;> simp [lifecycleAccepts, hl] at haccepts ⊢
  unfold MeetingRecord.validateLifecycle at hlifecycle
  simp only [hready, check_bind_eq_ok, refuseIf_eq_ok, not_not, hnote, h.current, Option.map_some,
    Option.some.injEq] at hlifecycle
  unfold SessionCore.validateNoteOf validateNote
  rw [hreferences.2.2.2.2.2.2, mapError_ok, ok_bind]
  exact refuseIf_of_not (by simp [hlifecycle.2])

/-- The next restoration is admitted, for every turn that is still withheld, if
no one else is at work on the meeting and nothing is pending. -/
theorem Restorable.admitRequest {meetingId : Uuid} {base : BaseTranscript B}
    {meeting : MeetingRecord}
    (h : Restorable (lib.meetings meetingId) meetingId base meeting revision) {turn : UInt32}
    (hturn : turn ∈ base.withheld) (hrestored : turn ∉ revision.restoredSourceTurnIndices)
    {next : RestorationRuntime B} (hfree : next.held meetingId = false)
    (hnone : nonterminalForMeeting lib.operations meetingId = []) :
    ∃ request, TranscriptRestorationCoordinator.admitRequest next
      ⟨meetingId, revision.digest, turn⟩ lib = .ok request := by
  have hdigest : validateDigest revision.digest = .ok () := by
    have haccepted := h.chain.accepted
    unfold inspectRevisionChain validateRevisionDigest at haccepted
    simp only [bind_eq_ok, refuseIf_eq_ok] at haccepted
    obtain ⟨_, hvalid, -⟩ := haccepted
    exact refuseIf_of_not hvalid
  have hclock := nowEpochSeconds_ne_zero next.requestClock
  have hrequest : (⟨.v1, next.operationId, meetingId, nowEpochSeconds next.requestClock,
      revision.digest, turn, meeting.artifacts.currentNote⟩ :
        TranscriptRestorationRequest).validate = .ok () := by
    unfold TranscriptRestorationRequest.validate
    rw [refuseIf_of_not (by simpa using hclock), ok_bind, hdigest, ok_bind, checkSome_eq_ok]
    intro note hnote
    exact h.validateNoteOf (by simpa using hnote) _
  have hacquire : acquire next.held meetingId = .ok () := refuseIf_of_not (by simp [hfree])
  unfold TranscriptRestorationCoordinator.admitRequest
  simp only [bind_eq_ok, mapError_eq_ok, refuseIf_eq_ok, not_not]
  exact ⟨_, (), hdigest, (), hacquire, (), hnone, meeting, h.record, revision,
    h.requireCurrentSource hturn hrestored, (), hrequest, rfl⟩

/-! ## Over every run -/

/-- A call that restores or recovers restorations, with a worker that only adds
files. -/
def ProductCall.Restores : ProductCall B → Prop
  | .restoreWithheldTurn rt _ => rt.OnlyAddsFiles
  | .recoverRestorations rt => rt.OnlyAddsFiles
  | .regenerateNote _ _ _ => False
  | .recoverNotes _ => False

theorem ProductCall.restorableOver_states {call : ProductCall B} (hcall : call.Restores)
    {meetingId : Uuid} {base : BaseTranscript B} (h : lib.RestorableOver meetingId base) :
    ∀ t ∈ call.states lib, t.RestorableOver meetingId base := by
  intro t ht
  have hframe := Library.restorableOver_frame (B := B) meetingId base
  cases call with
  | restoreWithheldTurn rt arguments => exact hframe.restoreWithheldTurn hcall arguments lib t ht h
  | recoverRestorations => exact hframe.recoverIncomplete hcall lib t ht h
  | regenerateNote | recoverNotes => exact hcall.elim

/-- However restorations and recoveries of restorations follow each other, each
stopped anywhere, a meeting whose restoration was admitted once keeps a current
transcript whose chain the walk accepts, over one base.  A reader is handed that
base and turns the base withholds, and the restoration of every other withheld
turn is admitted as soon as nothing is pending. -/
theorem restorations_leave_accepted_chain {rt : RestorationRuntime B}
    {arguments : RestoreWithheldTurnUiArgs} {lib : Library B}
    {request : TranscriptRestorationRequest} (hallowed : admitRequest rt arguments lib = .ok request) :
    ∃ base : BaseTranscript B, ∀ attempts : List (ProductCall B × Nat),
      (∀ attempt ∈ attempts, attempt.1.Restores) →
      let t := run ProductCall.states lib attempts
      ∃ meeting revision,
        loadAndVerifyMeeting (t.reader arguments.meetingId) arguments.meetingId = .ok meeting ∧
        meeting.artifacts.currentTranscript =
          some ⟨revisionPath revision.digest, revision.digest⟩ ∧
        inspectRevisionChain (readRevision (t.reader arguments.meetingId)) arguments.meetingId
          revision.digest = .ok (revision, base.bytes) ∧
        transcriptProjectionSource (t.reader arguments.meetingId) arguments.meetingId
          ⟨revisionPath revision.digest, revision.digest⟩ =
            .ok (base.bytes, revision.restoredSourceTurnIndices.toFinset) ∧
        revision.withheldSourceTurnIndices = base.withheld ∧
        revision.restoredSourceTurnIndices.toFinset ⊆ base.withheld ∧
        ∀ turn ∈ base.withheld, turn ∉ revision.restoredSourceTurnIndices →
          ∀ next : RestorationRuntime B, next.held arguments.meetingId = false →
            nonterminalForMeeting t.operations arguments.meetingId = [] →
            ∃ request, admitRequest next ⟨arguments.meetingId, revision.digest, turn⟩ t =
              .ok request := by
  obtain ⟨base, hbase⟩ := restorableOver_of_admitRequest hallowed
  refine ⟨base, fun attempts hcalls => ?_⟩
  have hrun : (run ProductCall.states lib attempts).RestorableOver arguments.meetingId base := by
    exact run_invariant_of_calls ProductCall.states (P := ProductCall.Restores)
      (I := fun s => s.RestorableOver arguments.meetingId base)
      (fun s call hcall hs => call.restorableOver_states hcall hs) attempts hcalls lib hbase
  obtain ⟨meeting, revision, h⟩ := hrun
  exact ⟨meeting, revision, h.record, h.current, h.chain.accepted, h.transcriptProjectionSource,
    h.chain.withheld, h.chain.restored_subset, fun turn hturn hrestored next hfree hnone =>
      h.admitRequest hturn hrestored hfree hnone⟩

/-- In the sample library, after a restoration that stopped early and a recovery:
a reader is handed the base. -/
theorem restorations_leave_accepted_chain_sample :
    ∃ base : BaseTranscript SampleBytes,
      let t := run ProductCall.states sampleLibrary
        [(.restoreWithheldTurn sampleRestoreRuntime sampleRestoreArguments, 2),
          (.recoverRestorations sampleRestoreRuntime, 3)]
      ∃ revision : InspectedTranscriptRevision,
        transcriptProjectionSource (t.reader sampleMeetingId) sampleMeetingId
          ⟨revisionPath revision.digest, revision.digest⟩ =
            .ok (base.bytes, revision.restoredSourceTurnIndices.toFinset) := by
  obtain ⟨base, h⟩ := restorations_leave_accepted_chain admitRequest_sample
  have hcalls : ∀ attempt ∈ [(ProductCall.restoreWithheldTurn sampleRestoreRuntime
      sampleRestoreArguments, 2), (.recoverRestorations sampleRestoreRuntime, 3)],
      attempt.1.Restores := by
    intro attempt hattempt
    rcases List.mem_pair.mp hattempt with rfl | rfl
    · exact onlyAddsFiles_sample
    · exact onlyAddsFiles_sample
  obtain ⟨meeting, revision, -, -, -, hsource, -⟩ := h _ hcalls
  exact ⟨base, revision, hsource⟩

end YawnApp.SessionCore
