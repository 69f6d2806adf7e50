import YawnApp.SessionCore.QueuePublication
import YawnApp.SessionCore.TranscriptDeletion

set_option autoImplicit false

/-!
# Deleting a transcript twice

The receipt of a transcript deletion is never taken away.  A meeting that
received another transcript since then still has it, in the state `Removed`, and
the next deletion goes on from it: it finds a record that is not detached and
refuses it.  Nothing of the queue touches a file that is there, so this is so
after every run of the queue.
-/

namespace YawnApp.SessionCore

open YawnApp.Foundation TranscriptionQueue QueueCall Directory Durable

variable {B : Type} [Platform B]

/-! ## What the queue leaves of the artifacts -/

/-- The artifacts of the meeting were kept. -/
def TreeKept (m t : MeetingDirectory B) : Prop := Keeps MeetingPath.IsEntry m.tree t.tree

omit [Platform B] in
theorem TreeKept.refl (m : MeetingDirectory B) : TreeKept m m := Keeps.refl m.tree

omit [Platform B] in
theorem TreeKept.trans {m t u : MeetingDirectory B} (h : TreeKept m t) (h' : TreeKept t u) :
    TreeKept m u := Keeps.trans h h'

namespace TreeKept

variable {ε α β : Type}

section

omit [Platform B]

theorem bind {program : Durable (MeetingDirectory B) ε α}
    {next : α → Durable (MeetingDirectory B) ε β} (h : Moves TreeKept program)
    (hnext : ∀ a, Moves TreeKept (next a)) : Moves TreeKept (program >>= next) :=
  Moves.bind TreeKept.refl (fun _ _ _ => TreeKept.trans) h hnext

/-- A step that changes the record or the queue. -/
theorem write {change : MeetingDirectory B → MeetingDirectory B}
    (h : ∀ m, (change m).tree = m.tree) :
    Moves TreeKept (Durable.write change : Durable (MeetingDirectory B) ε Unit) := by
  apply Moves.step
  intro m t ht
  cases ht
  unfold TreeKept
  rw [h m]
  exact Keeps.refl m.tree

theorem inItem (id : Uuid) (program : Durable (ItemDirectory B) ε α) :
    Moves TreeKept (MeetingDirectory.inItem id program) :=
  Moves.zoom program fun m _ => Keeps.refl m.tree

theorem createQueueFolder :
    Moves TreeKept (createQueueFolder : Durable (MeetingDirectory B) TranscriptionQueueError Unit) := by
  apply bind (Moves.inspect _)
  intro queue
  cases queue with
  | none => exact bind (write fun _ => rfl) fun _ => write fun _ => rfl
  | some => exact write fun _ => rfl

theorem createItemDirectory (id : Uuid) : Moves TreeKept
    (createItemDirectory id : Durable (MeetingDirectory B) TranscriptionQueueError Unit) :=
  bind (write fun _ => rfl) fun _ => inItem id _

theorem createClaimsDirectory (id : Uuid) : Moves TreeKept
    (createClaimsDirectory id : Durable (MeetingDirectory B) TranscriptionQueueError Unit) := by
  apply bind (Moves.inspect _)
  intro claims
  cases claims with
  | none => exact bind (inItem id _) fun _ => inItem id _
  | some => exact inItem id _

theorem createClaimFolder (id claimId : Uuid) : Moves TreeKept
    (createClaimFolder id claimId : Durable (MeetingDirectory B) TranscriptionQueueError Unit) := by
  apply bind (Moves.inspect _)
  intro folder
  cases folder with
  | none => exact bind (inItem id _) fun _ => inItem id _
  | some => exact inItem id _

theorem removeItemDirectory (id : Uuid) : Moves TreeKept
    (Durable.step (removeItemDirectory id) : Durable (MeetingDirectory B) IoError Unit) := by
  apply Moves.step
  intro m t ht
  unfold TranscriptionQueue.removeItemDirectory at ht
  split at ht
  · cases ht
  · split at ht
    · cases ht
    · cases ht
      exact Keeps.refl m.tree

end

theorem createReceipt (id : Uuid) (name : QueueReceipt) (bytes : B) :
    Moves TreeKept (createReceipt id name bytes) := Moves.mapError (inItem id _)

theorem createClaimReceipt (id claimId : Uuid) (name : ClaimReceipt) (bytes : B) :
    Moves TreeKept (createClaimReceipt id claimId name bytes) := Moves.mapError (inItem id _)

theorem replaceRecord (bytes : B) : Moves TreeKept
    (MeetingDirectory.replaceRecord bytes : Durable (MeetingDirectory B) ε Unit) :=
  bind (write fun _ => rfl) fun _ => bind (write fun _ => rfl) fun _ => write fun _ => rfl

omit [Platform B] in
theorem inTree {program : Durable (ArtifactTree B) ε α}
    (h : Moves (Keeps MeetingPath.IsEntry) program) :
    Moves TreeKept (MeetingDirectory.inTree program) := Moves.zoom_of h fun _ _ h => h

/-! ### The operations -/

theorem enqueueIn (request : TranscriptionRequest) :
    Moves TreeKept (enqueueIn request : Durable (MeetingDirectory B) _ _) := by
  apply bind (Moves.inspect _)
  intro meeting
  apply bind createQueueFolder
  intro _
  apply bind (Moves.inspect _)
  intro found
  cases found with
  | some => exact bind (Moves.inspect _) fun _ => bind (Moves.lift _) fun _ => Moves.pure _
  | none =>
    apply bind (createItemDirectory _)
    intro _
    apply bind (Moves.onError TreeKept.refl (fun _ _ _ => TreeKept.trans) (createReceipt _ _ _)
      (removeItemDirectory _))
    exact fun _ => bind (Moves.inspect _) fun _ => Moves.inspect _

theorem claimIn (name : String) (id : Uuid) (worker : String) (clock : UInt64) (claimId : Uuid) :
    Moves TreeKept (claimIn name id worker clock claimId : Durable (MeetingDirectory B) _ _) := by
  apply bind (Moves.inspect _)
  intro item
  apply bind (Moves.inspect _)
  intro meeting
  apply bind (Moves.inspect _)
  intro _
  apply bind (Moves.lift _)
  intro _
  apply bind (Moves.lift _)
  intro _
  exact bind (createClaimsDirectory id) fun _ => bind (createClaimFolder id claimId) fun _ =>
    bind (createClaimReceipt _ _ _ _) fun _ => Moves.inspect _

theorem appendRelease (id claimId : Uuid) (clock : UInt64) (item : TranscriptionQueueItem) :
    Moves TreeKept (appendRelease id claimId clock item : Durable (MeetingDirectory B) _ _) := by
  apply bind (Moves.lift _)
  intro claim
  apply bind (Moves.lift _)
  intro _
  apply bind (Moves.inspect _)
  intro released
  cases released with
  | none => exact bind (createClaimReceipt _ _ _ _) fun _ => Moves.inspect _
  | some => exact Moves.inspect _

theorem releaseClaimIn (name : String) (id claimId : Uuid) (clock : UInt64) :
    Moves TreeKept (releaseClaimIn name id claimId clock : Durable (MeetingDirectory B) _ _) := by
  apply bind (Moves.inspect _)
  intro item
  cases item.isOpen with
  | true => exact bind (Moves.inspect _) fun _ => bind (Moves.inspect _) fun _ => appendRelease _ _ _ _
  | false => exact appendRelease _ _ _ _

theorem admitResultIn [DecidableEq B] (name : String) (id : Uuid) (transcriptBytes : B)
    (transcript : ArtifactRef) (clock : UInt64) (nonce : Uuid) :
    Moves TreeKept (admitResultIn name id transcriptBytes transcript clock nonce) := by
  apply bind (Moves.inspect _)
  intro item
  apply bind (Moves.inspect _)
  intro meeting
  apply bind (Moves.inspect _)
  intro _
  apply bind (Moves.lift _)
  intro _
  apply bind (Moves.lift _)
  intro _
  apply bind (Moves.lift _)
  intro _
  apply bind (inTree (storeTranscript_keeps _ _ _))
  exact fun _ => bind (Moves.inspect _) fun _ => bind (createReceipt _ _ _) fun _ => Moves.inspect _

theorem publish (name : String) (meeting : MeetingRecord) (transcript : ArtifactRef) :
    Moves TreeKept (publish name meeting transcript : Durable (MeetingDirectory B) _ _) := by
  unfold TranscriptionQueue.publish
  split
  · exact Moves.pure ()
  · exact bind (Moves.lift _) fun _ => bind (Moves.lift _) fun _ => replaceRecord _

theorem commitIn (name : String) (id : Uuid) (clock : UInt64) :
    Moves TreeKept (commitIn name id clock : Durable (MeetingDirectory B) _ _) := by
  apply bind (Moves.inspect _)
  intro item
  apply bind (Moves.lift _)
  intro result
  apply bind (Moves.inspect _)
  intro meeting
  apply bind (Moves.inspect _)
  intro _
  apply bind (Moves.inspect _)
  intro _
  cases item.commit with
  | some => exact bind (Moves.lift _) fun _ => Moves.pure _
  | none =>
    exact bind (Moves.lift _) fun _ => bind (publish _ _ _) fun _ => bind (Moves.inspect _) fun _ =>
      bind (createReceipt _ _ _) fun _ => Moves.inspect _

theorem failIn (name : String) (id : Uuid) (kind : TranscriptionTerminalKind) (clock : UInt64) :
    Moves TreeKept (failIn name id kind clock : Durable (MeetingDirectory B) _ _) := by
  apply bind (Moves.inspect _)
  intro item
  apply bind (Moves.inspect _)
  intro meeting
  apply bind (Moves.inspect _)
  intro _
  apply bind (Moves.lift _)
  intro _
  apply bind (Moves.lift _)
  intro _
  cases item.terminal with
  | some => exact bind (Moves.lift _) fun _ => Moves.pure _
  | none => exact bind (createReceipt _ _ _) fun _ => Moves.inspect _

variable [DecidableEq B]

theorem inMeeting (call : QueueCall B) (name : String) :
    Moves TreeKept (call.inMeeting name) := by
  cases call with
  | enqueue request => exact enqueueIn request
  | claim id worker clock claimId => exact claimIn name id worker clock claimId
  | releaseClaim id claimId clock => exact releaseClaimIn name id claimId clock
  | admitResult id transcriptBytes transcript clock nonce =>
    exact admitResultIn name id transcriptBytes transcript clock nonce
  | commit id clock => exact commitIn name id clock
  | fail id kind clock => exact failIn name id kind clock

/-- Every call of the queue, stopped anywhere, keeps the artifacts of every meeting. -/
theorem cut {library : Meetings B} {name : String} {m : MeetingDirectory B}
    (hm : library.entry name = some m) (attempt : QueueCall B × Nat) :
    ∃ t, (cut states library attempt).entry name = some t ∧ TreeKept m t := by
  obtain ⟨call, steps⟩ := attempt
  unfold Foundation.cut states
  rcases call.exec_cases library with ⟨e, hexec⟩ | ⟨other, m', hm', -, hexec⟩
  · rw [hexec]
    exact ⟨m, by simpa using hm, TreeKept.refl m⟩
  · rw [hexec, cut_within hm', entry_put]
    split
    · rename_i hname
      subst hname
      rw [hm] at hm'
      cases hm'
      refine ⟨_, rfl, ?_⟩
      exact ((inMeeting call name).meets TreeKept.refl fun _ h => h).cut (TreeKept.refl m) steps
    · exact ⟨m, hm, TreeKept.refl m⟩

/-- So does every run. -/
theorem run {library : Meetings B} {name : String} {m : MeetingDirectory B}
    (hm : library.entry name = some m) (attempts : List (QueueCall B × Nat)) :
    ∃ t, (run states library attempts).entry name = some t ∧ TreeKept m t := by
  refine run_invariant_of_cut (I := fun library => ∃ t, library.entry name = some t ∧ TreeKept m t)
    states (fun library attempt h => ?_) attempts library ⟨m, hm, TreeKept.refl m⟩
  obtain ⟨t, ht, hkept⟩ := h
  obtain ⟨u, hu, hkept'⟩ := cut ht attempt
  exact ⟨u, hu, hkept.trans hkept'⟩

end TreeKept

/-! ## A receipt of a completed deletion -/

section Completed

variable {name : String} {m t : MeetingDirectory B} {receipt : TranscriptDeletionReceipt}
  {meeting : MeetingRecord}

/-- What a completed deletion left beside the meeting. -/
structure HasRemovedReceipt (name : String) (m : MeetingDirectory B)
    (receipt : TranscriptDeletionReceipt) : Prop where
  isPrivate : requirePrivateDirectory m.tree (.entry []) = .ok ()
  present : privateFileExists m.tree deletionReceiptPath = .ok true
  loads : loadDeletionReceipt m.tree = .ok receipt
  meetingId : receipt.meetingId = name
  removed : receipt.state = .removed

theorem hasRemovedReceipt_of_completed (h : transcriptDeletionCompleted name m = .ok true) :
    ∃ receipt, HasRemovedReceipt name m receipt := by
  unfold transcriptDeletionCompleted at h
  rw [check_bind_eq_ok, mapError_eq_ok, bind_eq_ok] at h
  obtain ⟨hprivate, present, hpresent, h⟩ := h
  cases present with
  | false => cases h
  | true =>
    rw [if_pos rfl, bind_eq_ok] at h
    obtain ⟨receipt, hloads, h⟩ := h
    split at h
    · cases h
    · rename_i hsame
      rw [not_or, not_not, not_not] at hsame
      exact ⟨receipt, hprivate, hpresent, hloads, hsame.1, hsame.2⟩

/-- A receipt that was written is read back. -/
theorem loadDeletionReceipt_of_written
    (hnode : m.tree.node deletionReceiptPath = some (.file 0o600 (toVecPretty receipt)))
    (hsize : ByteString.size (toVecPretty receipt : B) ≤ maxReceiptBytes)
    (hshape : validateReceiptShape receipt = .ok ()) : loadDeletionReceipt m.tree = .ok receipt := by
  unfold loadDeletionReceipt
  rw [readPrivateBytes_of_file hnode hsize, mapError_ok, ok_bind, fromSlice_toVecPretty,
    orRefuse_some, ok_bind, hshape]
  rfl

theorem HasRemovedReceipt.completed (h : HasRemovedReceipt name m receipt)
    (hmeeting : loadMeeting m.reader name = .ok meeting)
    (hterminal : terminalRecordIsConsistent m.tree meeting receipt = .ok ()) :
    transcriptDeletionCompleted name m = .ok true := by
  unfold transcriptDeletionCompleted
  rw [h.isPrivate, h.present]
  simp only [mapError_ok, ok_bind, if_true, h.loads, h.meetingId, h.removed, ne_eq,
    not_true_eq_false, or_self, if_false, hmeeting, hterminal]
  rfl

omit [Platform B] in
/-- A file that is there is the same file afterwards. -/
theorem TreeKept.file (h : TreeKept m t) {components : List String}
    (hfile : privateFileExists m.tree (.entry components) = .ok true) :
    t.tree.node (.entry components) = m.tree.node (.entry components) := by
  unfold privateFileExists at hfile
  cases hnode : m.tree.node (.entry components) with
  | none =>
    rw [hnode] at hfile
    cases hfile
  | some n =>
    cases n with
    | file mode bytes => exact Keeps.file h (.entry components) trivial mode bytes hnode
    | directory | symlink =>
      rw [hnode] at hfile
      cases hfile

omit [Platform B] in
theorem TreeKept.privateDirectory (h : TreeKept m t) {components : List String}
    (hprivate : requirePrivateDirectory m.tree (.entry components) = .ok ()) :
    requirePrivateDirectory t.tree (.entry components) = .ok () := by
  obtain ⟨mode, hnode, hmode⟩ := requirePrivateDirectory_eq_ok.mp hprivate
  obtain ⟨mode', hnode', hmode'⟩ := Keeps.directory h (.entry components) trivial mode hnode
  refine requirePrivateDirectory_eq_ok.mpr ⟨mode', hnode', ?_⟩
  rcases hmode' with rfl | rfl
  · exact hmode
  · rfl

/-- The queue leaves the receipt of a deletion where it is. -/
theorem TreeKept.removedReceipt (h : TreeKept m t) (hremoved : HasRemovedReceipt name m receipt) :
    HasRemovedReceipt name t receipt := by
  have hnode : t.tree.node deletionReceiptPath = m.tree.node deletionReceiptPath :=
    h.file hremoved.present
  refine ⟨h.privateDirectory hremoved.isPrivate, ?_, ?_, hremoved.meetingId, hremoved.removed⟩
  · have hpresent := hremoved.present
    unfold privateFileExists at hpresent ⊢
    rwa [hnode]
  · have hloads := hremoved.loads
    unfold loadDeletionReceipt readPrivateBytes openPrivateFile at hloads ⊢
    rwa [hnode]

/-- With that receipt and a record that has a transcript, the last check of the
deletion is all that is left of it. -/
theorem finishRemoval_of_removed (choices : DeletionChoices B) (hremoved : receipt.state = .removed)
    (hpending : meeting.pendingStorageOperation ≠ some .transcriptDeletionV1)
    (htranscript : meeting.artifacts.currentTranscript.isSome = true) :
    (finishRemoval choices name meeting receipt).exec t = ⟨[], .error .malformedReceipt⟩ := by
  have hdeleting : receipt.state ≠ .deleting := by rw [hremoved]; nofun
  have hstaged : receipt.state ≠ .staged := by rw [hremoved]; nofun
  have hfirst : (finishDeleting choices name meeting receipt).exec t = ⟨[], .ok (meeting, receipt)⟩ := by
    unfold finishDeleting
    rw [if_neg hdeleting]
    rfl
  have hsecond : (finishStaged choices receipt).exec t = ⟨[], .ok receipt⟩ := by
    unfold finishStaged
    rw [if_neg hstaged]
    rfl
  have hcheck : terminalRecordIsConsistent t.tree meeting receipt = .error .malformedReceipt := by
    unfold terminalRecordIsConsistent
    rw [refuseIf_of (.inr (.inr (.inl htranscript)))]
    rfl
  unfold finishRemoval
  rw [bind_of_eq_ok_nil _ hfirst]
  change (finishStaged choices receipt >>= fun receipt => finishRemoved name meeting receipt).exec t = _
  rw [bind_of_eq_ok_nil _ hsecond]
  unfold finishRemoved
  rw [if_pos hremoved]
  dsimp only
  rw [if_neg hpending]
  exact congrArg (Outcome.mk []) hcheck

theorem deleteTranscriptIn_of_removed (choices : DeletionChoices B)
    (scanned : Except OperationStoreError OperationStore.Scanned)
    (hremoved : HasRemovedReceipt name t receipt) (hmeeting : loadMeeting t.reader name = .ok meeting)
    (htranscript : meeting.artifacts.currentTranscript.isSome = true) :
    (deleteTranscriptIn choices scanned name).exec t = ⟨[], .error .malformedReceipt⟩ := by
  have hvalid := (MeetingRecord.validate_eq_ok B _ _).mp (loadMeeting_eq_ok hmeeting)
  have hid : meeting.meetingId = name := by
    have hidentity := hvalid.identity
    unfold MeetingRecord.validateIdentity at hidentity
    rw [refuseIf_eq_ok, not_or, not_not, not_not] at hidentity
    exact hidentity.2
  have hpending : meeting.pendingStorageOperation ≠ some .transcriptDeletionV1 := by
    intro hpending
    have hrefused := hvalid.pending
    unfold MeetingRecord.validatePending at hrefused
    rw [refuseIf_eq_ok] at hrefused
    exact hrefused ⟨hpending, .inr (.inl htranscript)⟩
  unfold deleteTranscriptIn
  refine (bind_inspect_of_ok _ (by exact mapError_eq_ok.mpr hremoved.isPrivate)).trans ?_
  refine (bind_inspect_of_ok _ (by exact mapError_eq_ok.mpr hmeeting)).trans ?_
  refine (bind_lift_of_ok _ _ (refuseIf_of_not (not_not.mpr hid))).trans ?_
  refine (bind_inspect_of_ok _ (by exact hremoved.present)).trans ?_
  refine (bind_inspect_of_ok _ (by exact hremoved.loads)).trans ?_
  refine (bind_lift_of_ok _ _ (refuseIf_of_not (not_not.mpr hremoved.meetingId))).trans ?_
  exact bind_of_eq_error _
    (finishRemoval_of_removed choices hremoved.removed hpending htranscript)

/-- A call for a meeting that is there and not active works in its directory. -/
theorem deleteMeetingTranscript_of_entry {library : Meetings B} (hname : validOpaqueId name = true)
    (ht : library.entry name = some t) (choices : DeletionChoices B)
    (scanned : Except OperationStoreError OperationStore.Scanned) :
    (deleteMeetingTranscript choices scanned (.ok ()) name).exec library =
      (Directory.within name (deleteTranscriptIn choices scanned name)).exec library := by
  have hpresent : (fun meetings : Meetings B => refuseIf (meetings.entry name).isNone
      TranscriptDeletionError.noSuchMeeting) library = .ok () := refuseIf_of_not (by simp [ht])
  unfold deleteMeetingTranscript
  rw [bind_lift_of_ok _ _ (refuseIf_of_not (not_not.mpr hname))]
  exact bind_inspect_of_ok _ hpresent

/-- A deletion is refused where that receipt meets a record with a transcript. -/
theorem deleteMeetingTranscript_of_removed {library : Meetings B} (ht : library.entry name = some t)
    (hremoved : HasRemovedReceipt name t receipt) (hmeeting : loadMeeting t.reader name = .ok meeting)
    (htranscript : meeting.artifacts.currentTranscript.isSome = true) (choices : DeletionChoices B)
    (scanned : Except OperationStoreError OperationStore.Scanned) :
    (deleteMeetingTranscript choices scanned (.ok ()) name).exec library =
      ⟨[], .error .malformedReceipt⟩ := by
  have hname : validOpaqueId name = true := by
    have hidentity := ((MeetingRecord.validate_eq_ok B _ _).mp (loadMeeting_eq_ok hmeeting)).identity
    unfold MeetingRecord.validateIdentity at hidentity
    rw [refuseIf_eq_ok, not_or, not_not] at hidentity
    exact hidentity.1
  rw [deleteMeetingTranscript_of_entry hname ht, within_apply ht,
    deleteTranscriptIn_of_removed choices scanned hremoved hmeeting htranscript]
  rfl

/-- A meeting whose transcript was deleted once and that has another one now is
never deleted from again: the call is refused before its first step. -/
theorem transcriptDeletion_not_repeated [DecidableEq B] {library : Meetings B}
    (hm : library.entry name = some m) (hcompleted : transcriptDeletionCompleted name m = .ok true)
    (attempts : List (QueueCall B × Nat))
    (ht : (run QueueCall.states library attempts).entry name = some t)
    (hmeeting : loadMeeting t.reader name = .ok meeting)
    (htranscript : meeting.artifacts.currentTranscript.isSome = true) (choices : DeletionChoices B)
    (scanned : Except OperationStoreError OperationStore.Scanned) :
    (deleteMeetingTranscript choices scanned (.ok ()) name).exec
        (run QueueCall.states library attempts) = ⟨[], .error .malformedReceipt⟩ := by
  obtain ⟨receipt, hremoved⟩ := hasRemovedReceipt_of_completed hcompleted
  obtain ⟨u, hu, hkept⟩ := TreeKept.run hm attempts
  rw [ht, Option.some.injEq] at hu
  subst hu
  exact deleteMeetingTranscript_of_removed ht (hkept.removedReceipt hremoved) hmeeting htranscript
    choices scanned

end Completed

/-! ## A meeting that received a second transcript -/

/-- The receipt of a completed deletion of one transcript. -/
def removedReceipt : TranscriptDeletionReceipt where
  schema := .v1
  meetingId := sampleMeetingId.text
  state := .removed
  priorLifecycle := .transcriptReady
  sourceTranscriptSha256 := emptySha256
  notesDirectory := false
  artifacts := [⟨"transcript/" ++ emptySha256 ++ ".json", 0, emptySha256⟩]

def deletedTree : ArtifactTree CapturedBytes :=
  (Volume.place capturedTree deletionDir (.directory 0o700)).place deletionReceiptPath
    (.file 0o600 (toVecPretty removedReceipt))

/-- The captured meeting with that receipt. -/
def deletedDirectory : MeetingDirectory CapturedBytes := { capturedDirectory with tree := deletedTree }

theorem tree_deletedDirectory : deletedDirectory.tree = deletedTree := by
  unfold deletedDirectory
  rfl

def deletedLibrary : Meetings CapturedBytes :=
  Directory.empty.put sampleMeetingId.text deletedDirectory

def secondTranscriptBytes : CapturedBytes := Document.raw "transcript" 10

def secondTranscript : ArtifactRef :=
  ⟨"transcript/" ++ capturedTranscriptSha256 ++ ".json", capturedTranscriptSha256⟩

/-- The new request, claimed. -/
def requestClaimed : List (QueueCall CapturedBytes × Nat) :=
  [(.enqueue capturedRequest, 9),
    (.claim capturedRequest.requestId "worker" 1754000010 sampleMeetingId, 9)]

def secondAdmission : QueueCall CapturedBytes :=
  .admitResult capturedRequest.requestId secondTranscriptBytes secondTranscript 1754000020
    sampleMeetingId

/-- Its result, admitted and committed. -/
def resultCommitted : List (QueueCall CapturedBytes) :=
  [secondAdmission, .commit capturedRequest.requestId 1754000030]

theorem loadMeeting_deleted :
    loadMeeting deletedDirectory.reader sampleMeetingId.text = .ok capturedMeeting :=
  loadMeeting_of_read validate_captured rfl

/-- The receipt is a private one of the meeting, and the meeting is as it was
captured. -/
theorem checks_deleted :
    (ByteString.size (toVecPretty removedReceipt : CapturedBytes) ≤ maxReceiptBytes ∧
      validateReceiptShape removedReceipt = .ok ()) ∧
    requirePrivateDirectory deletedTree (.entry []) = .ok () ∧
    privateFileExists deletedTree deletionReceiptPath = .ok true ∧
    terminalRecordIsConsistent deletedTree capturedMeeting removedReceipt = .ok () ∧
    verifyRecordArtifacts deletedDirectory.reader capturedMeeting = .ok () := by
  decide +kernel

theorem completed_deleted :
    transcriptDeletionCompleted sampleMeetingId.text deletedDirectory = .ok true := by
  obtain ⟨⟨hsize, hshape⟩, hprivate, hpresent, hterminal, -⟩ := checks_deleted
  have hnode : deletedDirectory.tree.node deletionReceiptPath =
      some (.file 0o600 (toVecPretty removedReceipt)) := Volume.node_place_self ..
  have hreceipt : HasRemovedReceipt sampleMeetingId.text deletedDirectory removedReceipt := {
    isPrivate := hprivate
    present := hpresent
    loads := loadDeletionReceipt_of_written hnode hsize hshape
    meetingId := rfl
    removed := rfl }
  exact hreceipt.completed loadMeeting_deleted hterminal

theorem loadSource_deleted :
    loadSource sampleMeetingId.text capturedRequest deletedDirectory = .ok capturedMeeting :=
  loadSource_eq_ok.mpr ⟨loadMeeting_deleted, rfl, rfl,
    verifySource_eq_ok.mpr ⟨checks_deleted.2.2.2.2, rfl, rfl, rfl⟩⟩

theorem eq_of_entry_deleted {name : String} {m : MeetingDirectory CapturedBytes}
    (h : deletedLibrary.entry name = some m) : name = sampleMeetingId.text ∧ m = deletedDirectory := by
  unfold deletedLibrary at h
  rw [entry_put] at h
  split at h
  · rename_i hname
    exact ⟨hname, (Option.some.inj h).symm⟩
  · cases h

theorem nothingEnqueued_deleted : NothingEnqueued deletedLibrary := by
  intro name m hm
  rw [(eq_of_entry_deleted hm).2]
  rfl

/-- The new request is claimed, and the meeting is as it was. -/
theorem claimed_deleted : ∃ m w claim, run states deletedLibrary requestClaimed =
      deletedLibrary.put sampleMeetingId.text m ∧
    m.view? capturedRequest.requestId = some w ∧
    w.Shows capturedRequest.requestId ⟨capturedRequest, some claim, none, none, none⟩ ∧
    SoundLibrary (deletedLibrary.put sampleMeetingId.text m) ∧
    m.record = deletedDirectory.record ∧ m.tree = deletedTree := by
  have hstart := nothingEnqueued_deleted.recoverable
  have hnone : OnlyRequest deletedLibrary capturedRequest.requestId := by
    intro name m hm other v hv
    rw [view?_of_queue_none (nothingEnqueued_deleted name m hm)] at hv
    cases hv
  have hentry : deletedLibrary.entry capturedRequest.meetingId = some deletedDirectory :=
    entry_put_self _ _ _
  have hworker : "worker" ≠ "" ∧ "worker".utf8ByteSize ≤ 256 := ⟨by decide, by decide⟩
  obtain ⟨m, w, hrun, hw, -, -, hsound, -, -, hrecord, htree, claim, hshows⟩ :=
    run_enqueue_claim hstart.sound hstart.accepted hnone validate_capturedRequest hentry rfl
      loadSource_deleted fits_capturedRequest hworker
      (fun _ _ _ other _ m hm => nothingEnqueued_deleted other m hm) 1754000010 sampleMeetingId
  exact ⟨m, w, claim, hrun, hw, hshows, hsound, hrecord, htree⟩

def secondResult : TranscriptionResult where
  schema := .v1
  requestId := capturedRequest.requestId
  meetingId := capturedRequest.meetingId
  transcript := secondTranscript
  resultSha256 := Platform.sha256 secondTranscriptBytes
  producedAtEpochSeconds := 1754000020

/-- The published record of the second transcript. -/
def secondRecord : MeetingRecord := publishedRecord capturedMeeting secondTranscript

/-- What is said of the second transcript names its bytes and keeps to the checks. -/
theorem checks_second :
    (verifyTranscriptRef secondTranscript = .ok () ∧
      secondTranscript.sha256 = Platform.sha256 secondTranscriptBytes ∧
      isSafeArtifactPath secondTranscript.relativePath = true ∧
      components secondTranscript.relativePath =
        ["transcript", capturedTranscriptSha256 ++ ".json"] ∧
      refuseIf (ByteString.size secondTranscriptBytes = 0 ∨
          ByteString.size secondTranscriptBytes > maxQueuedTranscriptBytes)
        (TranscriptionQueueError.malformed "transcript size") = .ok ()) ∧
    Fits CapturedBytes secondResult ∧
    secondRecord.validate CapturedBytes sampleMeetingId.text = .ok () := by
  decide +kernel

theorem verify_secondTranscript {tree : ArtifactTree CapturedBytes}
    (hdirectory : tree.node (.entry ["transcript"]) = some (.directory 0o700))
    (hfile : tree.node (.entry ["transcript", capturedTranscriptSha256 ++ ".json"]) =
      some (.file 0o600 secondTranscriptBytes)) :
    verifyArtifactRef (ArtifactTree.reader tree) secondTranscript = .ok () := by
  obtain ⟨⟨-, hdigest, hsafe, hpath, -⟩, -⟩ := checks_second
  have hread : ArtifactTree.reader tree secondTranscript.relativePath = .ok secondTranscriptBytes := by
    unfold ArtifactTree.reader
    rw [hpath]
    change (do
      (requirePrivateDirectory tree (.entry ["transcript"]) >>= fun _ => pure PUnit.unit)
      openPrivateFile tree (.entry ["transcript", capturedTranscriptSha256 ++ ".json"])) = _
    rw [requirePrivateDirectory_of_private hdirectory]
    unfold openPrivateFile
    rw [hfile]
    rfl
  have hhash : hashArtifact (ArtifactTree.reader tree) secondTranscript.relativePath =
      .ok (Platform.sha256 secondTranscriptBytes) := by
    unfold hashArtifact
    rw [hsafe, refuseIf_of_not (not_not.mpr rfl), ok_bind, hread]
    rfl
  unfold verifyArtifactRef
  rw [hhash, ok_bind]
  exact refuseIf_of_not (not_not.mpr hdigest.symm)

theorem places_deleted :
    deletedTree.node (.entry []) = some (.directory 0o700) ∧
    deletedTree.node (.entry ["transcript"]) = none ∧
    deletedTree.node (.entry ["transcript", capturedTranscriptSha256 ++ ".json"]) = none ∧
    deletedTree.node (.temporary ["transcript", capturedTranscriptSha256 ++ ".json"]
      sampleMeetingId) = none := by
  decide +kernel

theorem storeTranscript_deleted : Meets
    (storeTranscript secondTranscriptBytes secondTranscript sampleMeetingId) deletedTree (fun _ => True)
    (fun _ t => t.node (.entry ["transcript"]) = some (.directory 0o700) ∧
      t.node (.entry ["transcript", capturedTranscriptSha256 ++ ".json"]) =
        some (.file 0o600 secondTranscriptBytes))
    (fun _ _ => False) := by
  obtain ⟨⟨-, -, hsafe, hpath, -⟩, -⟩ := checks_second
  obtain ⟨hroot, habsent, hfile, htemporary⟩ := places_deleted
  exact storeTranscript_of_absent hroot habsent hsafe hpath hfile htemporary

section Second

variable {m t : MeetingDirectory CapturedBytes} {w : ItemView CapturedBytes}
  {claim : TranscriptionClaim}

/-- The meeting is still the one that was captured. -/
theorem loadSource_of_deleted (hrecord : m.record = deletedDirectory.record)
    (htree : m.tree = deletedTree) :
    loadSource sampleMeetingId.text capturedRequest m = .ok capturedMeeting := by
  have hreader : m.reader = deletedDirectory.reader := by
    unfold MeetingDirectory.reader
    rw [hrecord, htree, tree_deletedDirectory]
  have hsource := loadSource_deleted
  unfold loadSource loadMeetingOf at hsource ⊢
  rwa [hreader]

theorem names_deleted :
    (deletedLibrary.put sampleMeetingId.text t).names = [sampleMeetingId.text] :=
  names_put_of_mem t (mem_names (entry_put_self _ _ _))

/-- The one request of the library is found in its one meeting. -/
theorem locate_deleted (hw : t.view? capturedRequest.requestId = some w) :
    locate capturedRequest.requestId (deletedLibrary.put sampleMeetingId.text t) =
      .ok sampleMeetingId.text :=
  locate_eq_ok.mpr ⟨⟨t, w, entry_put_self _ _ _, hw⟩, [], [], names_deleted, nofun⟩

/-- The second transcript is admitted. -/
theorem secondAdmission_admits (hw : m.view? capturedRequest.requestId = some w)
    (hshows : w.Shows capturedRequest.requestId ⟨capturedRequest, some claim, none, none, none⟩)
    (hrecord : m.record = deletedDirectory.record) (htree : m.tree = deletedTree) :
    Meets (secondAdmission.inMeeting sampleMeetingId.text) m (fun _ => True)
      (fun _ t => verifyArtifactRef t.reader secondTranscript = .ok () ∧ Becomes m t m.record
        (setView m.view? capturedRequest.requestId (w.link .result (toVecPretty secondResult))))
      (fun _ _ => False) := by
  have hstore : Meets (storeTranscript secondTranscriptBytes secondTranscript sampleMeetingId) m.tree
      (fun _ => True)
      (fun _ t => t.node (.entry ["transcript"]) = some (.directory 0o700) ∧
        t.node (.entry ["transcript", capturedTranscriptSha256 ++ ".json"]) =
          some (.file 0o600 secondTranscriptBytes))
      (fun _ _ => False) := by
    rw [htree]
    exact storeTranscript_deleted
  obtain ⟨⟨href, hdigest, -⟩, hfits, -⟩ := checks_second
  exact admitResultIn_admits hw hshows rfl rfl (loadSource_of_deleted hrecord htree) hdigest href
    hstore (fun _ _ hstored => verify_secondTranscript hstored.1 hstored.2) hfits

/-- What the admission leaves of the library. -/
theorem getLastD_secondAdmission (hw : m.view? capturedRequest.requestId = some w) :
    (secondAdmission.states (deletedLibrary.put sampleMeetingId.text m)).getLastD
        (deletedLibrary.put sampleMeetingId.text m) =
      deletedLibrary.put sampleMeetingId.text
        (((secondAdmission.inMeeting sampleMeetingId.text).exec m).final m) := by
  obtain ⟨⟨-, -, -, -, hsize⟩, -⟩ := checks_second
  have hadmitted : secondAdmission.program.exec (deletedLibrary.put sampleMeetingId.text m) = _ :=
    (bind_lift_of_ok _ _ hsize).trans (inLocated_of_located (locate_deleted hw) _)
  have hlast := getLastD_states (entry_put_self _ _ m) hadmitted
  rwa [put_put] at hlast

/-- What the commit leaves of it. -/
theorem getLastD_secondCommit (hw : m.view? capturedRequest.requestId = some w) :
    ((commit capturedRequest.requestId 1754000030).states
        (deletedLibrary.put sampleMeetingId.text m)).getLastD
        (deletedLibrary.put sampleMeetingId.text m) =
      deletedLibrary.put sampleMeetingId.text
        (((inMeeting sampleMeetingId.text
          (.commit capturedRequest.requestId 1754000030)).exec m).final m) := by
  have hcommitted : (commit capturedRequest.requestId 1754000030).program.exec
      (deletedLibrary.put sampleMeetingId.text m) = _ := inLocated_of_located (locate_deleted hw) _
  have hlast := getLastD_states (entry_put_self _ _ m) hcommitted
  rwa [put_put] at hlast

/-- The two calls that follow, as one step each. -/
theorem complete_resultCommitted {m₁ : MeetingDirectory CapturedBytes}
    (hrun : run states deletedLibrary requestClaimed =
      deletedLibrary.put sampleMeetingId.text m)
    (hfirst : (secondAdmission.states (deletedLibrary.put sampleMeetingId.text m)).getLastD
      (deletedLibrary.put sampleMeetingId.text m) = deletedLibrary.put sampleMeetingId.text m₁)
    (hlast : ((commit capturedRequest.requestId 1754000030).states
      (deletedLibrary.put sampleMeetingId.text m₁)).getLastD
      (deletedLibrary.put sampleMeetingId.text m₁) = deletedLibrary.put sampleMeetingId.text t) :
    complete states (run states deletedLibrary requestClaimed)
      resultCommitted = deletedLibrary.put sampleMeetingId.text t := by
  unfold resultCommitted
  rw [complete_cons, complete_cons, complete_nil, hrun, hfirst, hlast]

end Second

/-- The worker's transcript goes through the queue into the record. -/
theorem published_deleted : ∃ t, (complete states
      (run states deletedLibrary requestClaimed) resultCommitted).entry
        sampleMeetingId.text = some t ∧
    loadMeeting t.reader sampleMeetingId.text = .ok secondRecord := by
  obtain ⟨m, w, claim, hrun, hw, hshows, hsound, hrecord, htree⟩ := claimed_deleted
  have hsource := loadSource_of_deleted hrecord htree
  obtain ⟨-, hfits, hvalid⟩ := checks_second
  have hentry : ∀ t, (deletedLibrary.put sampleMeetingId.text t).entry sampleMeetingId.text = some t :=
    fun t => entry_put_self _ _ t
  -- the result is admitted
  obtain ⟨-, -, hread, hbecomes⟩ := (secondAdmission_admits hw hshows hrecord htree).answers
  have hfirst := getLastD_secondAdmission hw
  have hsound' := hsound.cut (secondAdmission,
    (secondAdmission.states (deletedLibrary.put sampleMeetingId.text m)).length)
  rw [cut_of_length_le _ _ _ (Nat.le_refl _), hfirst] at hsound'
  generalize ((secondAdmission.inMeeting sampleMeetingId.text).exec m).final m = m₁
    at hfirst hsound' hread hbecomes
  have hw' : m₁.view? capturedRequest.requestId =
      some (w.link .result (toVecPretty secondResult)) := by
    rw [hbecomes.views, setView_self]
  have hshows' := hshows.link_result rfl hfits
  have hready : SourceReady sampleMeetingId.text m₁
      ⟨capturedRequest, some claim, none, none, none⟩ capturedMeeting :=
    (SourceReady.of_loadSource hsource rfl).of_becomes hbecomes
  have hsource' : loadSource sampleMeetingId.text capturedRequest m₁ = .ok capturedMeeting :=
    loadSource_eq_ok.mpr ⟨hready.record, rfl, rfl, hready.source⟩
  -- and committed
  have hcommit : Meets ((commit capturedRequest.requestId 1754000030).inMeeting
      sampleMeetingId.text) m₁ (fun _ => True)
      (fun _ t => t.record = some (toVecPretty secondRecord)) (fun _ _ => False) :=
    commitIn_publishes (hsound' _ _ (hentry m₁)) hw' hshows' rfl rfl hsource' hread
      hvalid 1754000030
  obtain ⟨-, -, hrecord'⟩ := hcommit.answers
  have hcomplete := complete_resultCommitted hrun hfirst (getLastD_secondCommit hw')
  refine ⟨_, by rw [hcomplete, hentry], loadMeeting_of_read hvalid ?_⟩
  rw [MeetingDirectory.reader_record]
  exact orRefuse_eq_ok.mpr hrecord'

/-- The claim's run: the meeting has the second transcript, and its deletion is
refused before its first step. -/
theorem deletion_refused_after_second :
    transcriptDeletionCompleted sampleMeetingId.text deletedDirectory = .ok true ∧
    deletedLibrary.entry sampleMeetingId.text = some deletedDirectory ∧
    ∃ t, (complete QueueCall.states (run QueueCall.states deletedLibrary requestClaimed)
        resultCommitted).entry sampleMeetingId.text = some t ∧
      loadMeeting t.reader sampleMeetingId.text = .ok secondRecord ∧
      secondRecord.artifacts.currentTranscript = some secondTranscript ∧
      ∀ (choices : DeletionChoices CapturedBytes) scanned,
        (deleteMeetingTranscript choices scanned (.ok ()) sampleMeetingId.text).exec
          (complete QueueCall.states (run QueueCall.states deletedLibrary requestClaimed)
            resultCommitted) = ⟨[], .error .malformedReceipt⟩ := by
  have hentry : deletedLibrary.entry sampleMeetingId.text = some deletedDirectory :=
    Directory.entry_put_self _ _ _
  obtain ⟨t, ht, hmeeting⟩ := published_deleted
  refine ⟨completed_deleted, hentry, t, ht, hmeeting, rfl, fun choices scanned => ?_⟩
  obtain ⟨receipt, hremoved⟩ := hasRemovedReceipt_of_completed completed_deleted
  obtain ⟨attempts, -, hrun⟩ := exists_run_eq_complete QueueCall.states resultCommitted
    (run QueueCall.states deletedLibrary requestClaimed)
  obtain ⟨u, hu, hkept⟩ := TreeKept.run hentry (requestClaimed ++ attempts)
  rw [run_append, hrun, ht, Option.some.injEq] at hu
  subst hu
  exact deleteMeetingTranscript_of_removed ht (hkept.removedReceipt hremoved) hmeeting rfl choices
    scanned

/-- The theorem at that run. -/
theorem transcriptDeletion_not_repeated_second : ∃ attempts : List (QueueCall CapturedBytes × Nat),
    attempts.map Prod.fst = requestClaimed.map Prod.fst ++ resultCommitted ∧
    ∀ (choices : DeletionChoices CapturedBytes) scanned,
      (deleteMeetingTranscript choices scanned (.ok ()) sampleMeetingId.text).exec
        (run QueueCall.states deletedLibrary attempts) = ⟨[], .error .malformedReceipt⟩ := by
  obtain ⟨t, ht, hmeeting⟩ := published_deleted
  obtain ⟨attempts, hcalls, hrun⟩ := exists_run_eq_complete QueueCall.states resultCommitted
    (run QueueCall.states deletedLibrary requestClaimed)
  have hentry : deletedLibrary.entry sampleMeetingId.text = some deletedDirectory :=
    Directory.entry_put_self _ _ _
  have hlast : (run QueueCall.states deletedLibrary (requestClaimed ++ attempts)).entry
      sampleMeetingId.text = some t := by
    rw [run_append, hrun, ht]
  refine ⟨requestClaimed ++ attempts, by rw [List.map_append, hcalls], fun choices scanned => ?_⟩
  exact transcriptDeletion_not_repeated hentry completed_deleted _ hlast hmeeting rfl choices scanned

end YawnApp.SessionCore
