import YawnApp.SessionCore.OperationStoreCrash
import YawnApp.SessionCore.RetryCreation

set_option autoImplicit false

/-!
# What retries leave of a meeting

Over any calls of the retry authority and any restorations, each stopped
anywhere, at most one candidate is pending and no decision is changed.  The
authority publishes nothing but promotions.  A decision is made, or repeated,
exactly while the transcript that it was about is the meeting's; otherwise it is
refused as stale and nothing changes.
-/

namespace YawnApp.SessionCore

open YawnApp.Foundation TranscriptRestorationCoordinator Durable

namespace TranscriptRetry

section Runs

variable {B : Type} [Platform B] {name : String} {source : CapturedDigests}
  {m t : MeetingDirectory B} {id : Uuid} {candidate : TranscriptRetryCandidate}
  {meeting : MeetingRecord}

/-- No retry has written a receipt. -/
def Unused (m : MeetingDirectory B) : Prop :=
  ∀ id mode bytes, m.tree.node (receiptPath id) ≠ some (.file mode bytes)

/-- A meeting without retries, or one that retries may work on. -/
def Retrying (name : String) (m : MeetingDirectory B) : Prop :=
  Unused m ∨ ∃ source, Retryable name source m

/-- What comes later in a run: decisions are still there. -/
structure Follows (name : String) (m t : MeetingDirectory B) : Prop where
  retrying : Retrying name t
  decided : ∀ id candidate, loadReceipt m.tree id = .ok candidate →
    candidate.state ≠ .candidateAvailableForComparison → loadReceipt t.tree id = .ok candidate

theorem Follows.refl (h : Retrying name m) : Follows name m m := ⟨h, fun _ _ hload _ => hload⟩

theorem Follows.trans {n : MeetingDirectory B} (hmt : Follows name m t) (htn : Follows name t n) :
    Follows name m n :=
  ⟨htn.retrying, fun id candidate hload hstate =>
    htn.decided id candidate (hmt.decided id candidate hload hstate) hstate⟩

theorem Follows.of_step (h : Retryable name source m) (hstep : RetryStep name source m t) :
    Follows name m t :=
  ⟨.inr ⟨source, hstep.retryable⟩, fun id candidate hload hstate =>
    (hstep.decided id candidate (h.stored hload) hstate).loadReceipt⟩

/-- A receipt that is read is a file. -/
theorem exists_file_of_loadReceipt (h : loadReceipt m.tree id = .ok candidate) :
    ∃ mode bytes, m.tree.node (receiptPath id) = some (.file mode bytes) := by
  obtain ⟨-, ⟨bytes, hbytes, -⟩, -⟩ := loadReceipt_eq_ok.mp h
  unfold readPrivateBytes openPrivateFile at hbytes
  cases hnode : m.tree.node (receiptPath id) with
  | none => simp [hnode] at hbytes
  | some n =>
    cases n with
    | file mode found => exact ⟨mode, found, rfl⟩
    | directory | symlink => simp [hnode] at hbytes

theorem Follows.of_unused (h : Unused m) (ht : Unused t) : Follows name m t := by
  refine ⟨.inl ht, fun id candidate hload _ => ?_⟩
  obtain ⟨mode, bytes, hfile⟩ := exists_file_of_loadReceipt hload
  exact absurd hfile (h id mode bytes)

/-- A meeting with a transcript has a capture to bind. -/
theorem Eligible.exists_captured (h : Eligible name m meeting) :
    ∃ source : CapturedDigests, source.Of meeting := by
  have hcomplete := (h.valid.completeCapture h.lifecycle).1
  unfold MeetingArtifacts.completeCapture at hcomplete
  simp only [Bool.and_eq_true, Option.isSome_iff_exists] at hcomplete
  obtain ⟨⟨⟨session, hsession⟩, microphone, hmicrophone⟩, system, hsystem⟩ := hcomplete
  exact ⟨⟨session.sha256, microphone.sha256, system.sha256⟩, by rw [hsession]; rfl,
    by rw [hmicrophone]; rfl, by rw [hsystem]; rfl⟩

theorem Retrying.retryable (h : Retrying name m) (heligible : Eligible name m meeting) :
    ∃ source, Retryable name source m := by
  rcases h with hunused | h
  · obtain ⟨source, hsource⟩ := heligible.exists_captured
    refine ⟨source, ⟨meeting, heligible, hsource⟩, fun id mode bytes hfile => ?_,
      fun id _ candidate _ hstored => ?_⟩
    · exact absurd hfile (hunused id mode bytes)
    · exact absurd hstored.file (hunused id _ _)
  · exact h

theorem Retrying.stored (h : Retrying name m) (hload : loadReceipt m.tree id = .ok candidate) :
    ∃ source, Retryable name source m ∧ StoredCandidate name source m id candidate := by
  rcases h with hunused | ⟨source, h⟩
  · obtain ⟨mode, bytes, hfile⟩ := exists_file_of_loadReceipt hload
    exact absurd hfile (hunused id mode bytes)
  · exact ⟨source, h, h.stored hload⟩

/-! ### One call -/

/-- No receipt is written or lost. -/
def CalmIn (m t : MeetingDirectory B) : Prop := Calm (fun _ => False) m.tree t.tree

section

omit [Platform B]

theorem CalmIn.refl (m : MeetingDirectory B) : CalmIn m m := Calm.refl m.tree

theorem CalmIn.trans (m t u : MeetingDirectory B) (hmt : CalmIn m t) (htu : CalmIn t u) : CalmIn m u :=
  Calm.trans hmt htu

theorem Unused.of_calm (h : Unused m) (hcalm : CalmIn m t) : Unused t :=
  fun id mode bytes hfile => h id mode bytes ((hcalm.receipts id not_false mode bytes).mp hfile)

end

theorem writeMeeting_calm (meeting : MeetingRecord) :
    Moves CalmIn (Recovery.writeMeeting name meeting : Durable (MeetingDirectory B) _ _) := by
  unfold Recovery.writeMeeting
  apply Moves.bind CalmIn.refl CalmIn.trans (Moves.lift _)
  intro bytes m t ht
  rw [MeetingDirectory.replaceRecord_apply] at ht
  simp only [List.mem_cons, List.not_mem_nil, or_false] at ht
  rcases ht with rfl | rfl | rfl <;> exact CalmIn.refl m

variable [DecidableEq B] {nonce : Uuid}

theorem applyRestorationIn_calm (request : TranscriptRestorationRequest)
    (result : TranscriptRestorationResult) :
    Moves CalmIn (applyRestorationIn request result : Durable (MeetingDirectory B) _ _) := by
  unfold applyRestorationIn
  exact Moves.bind CalmIn.refl CalmIn.trans (Moves.inspect _) fun meeting =>
    (writeMeeting_calm meeting).mapError

theorem executeRestorationIn_calm (worker : RestorationWorker B)
    (request : TranscriptRestorationRequest) :
    Moves CalmIn (executeRestorationIn worker request) := by
  unfold executeRestorationIn
  apply Moves.bind CalmIn.refl CalmIn.trans (Moves.inspect _)
  intro prepared
  refine Moves.bind CalmIn.refl CalmIn.trans ?_ fun digests => ?_
  · have hworker : Moves StoresTranscripts (Durable.mapError
        TranscriptRestorationCoordinatorError.worker (worker.answer prepared.2)) :=
      (worker.stores prepared.2).mapError
    exact Moves.zoom_of hworker fun m u hu => StoresTranscripts.calm hu
  · exact Moves.bind CalmIn.refl CalmIn.trans (Moves.inspect _) fun result =>
      applyRestorationIn_calm request result

omit [Platform B] [DecidableEq B] in
/-- A call that refuses to look at the meeting does nothing. -/
theorem trace_of_refused {α β : Type} {look : MeetingDirectory B → Except TranscriptRetryError α}
    {k : α → Durable (MeetingDirectory B) TranscriptRetryError β}
    (h : ∀ a, look m ≠ .ok a) : ((Durable.inspect look >>= k).exec m).trace = [] := by
  cases hlook : look m with
  | ok a => exact absurd hlook (h a)
  | error => rw [bind_inspect_of_error k hlook]

theorem RetryCall.follows (call : RetryCall B name) (h : Retrying name m) :
    ∀ t ∈ call.states m, Follows name m t := by
  cases call with
  | createCandidate choices id bytes binding =>
    intro t ht
    change t ∈ ((createCandidateIn choices name id bytes binding).exec m).trace at ht
    by_cases heligible : ∃ meeting, Eligible name m meeting
    · obtain ⟨meeting, heligible⟩ := heligible
      obtain ⟨source, hretryable⟩ := h.retryable heligible
      exact .of_step hretryable
        ((createCandidateIn_meets hretryable choices id bytes binding).crash t ht).1
    · unfold createCandidateIn at ht
      rw [trace_of_refused fun meeting hmeeting =>
        heligible ⟨meeting, loadSource_eq_ok.mp hmeeting⟩] at ht
      cases ht
  | keepCurrent nonce id =>
    intro t ht
    change t ∈ ((keepCurrentIn nonce name id).exec m).trace at ht
    by_cases hfound : ∃ found, loadDecision name id m = .ok found
    · obtain ⟨⟨meeting, candidate⟩, hfound⟩ := hfound
      obtain ⟨source, hretryable⟩ := h.retryable (loadDecision_eq_ok.mp hfound).1
      exact .of_step hretryable ((keepCurrentIn_meets hretryable nonce id).crash t ht).1
    · unfold keepCurrentIn at ht
      rw [trace_of_refused fun found hload => hfound ⟨found, hload⟩] at ht
      cases ht
  | promoteCandidate nonce id =>
    intro t ht
    change t ∈ ((promoteCandidateIn nonce name id).exec m).trace at ht
    by_cases hfound : ∃ found, loadDecision name id m = .ok found
    · obtain ⟨⟨meeting, candidate⟩, hfound⟩ := hfound
      obtain ⟨source, hretryable⟩ := h.retryable (loadDecision_eq_ok.mp hfound).1
      exact .of_step hretryable ((promoteCandidateIn_meets hretryable nonce id).crash t ht).1
    · unfold promoteCandidateIn at ht
      rw [trace_of_refused fun found hload => hfound ⟨found, hload⟩] at ht
      cases ht
  | restoreWithheldTurn worker request hname =>
    intro t ht
    change t ∈ ((executeRestorationIn worker request).exec m).trace at ht
    subst hname
    rcases h with hunused | ⟨source, hretryable⟩
    · exact .of_unused hunused (hunused.of_calm (executeRestorationIn_calm worker request m t ht))
    · exact .of_step hretryable ((executeRestorationIn_meets worker hretryable).crash t ht)
  | resumeRestoration request result hname =>
    intro t ht
    change t ∈ ((applyRestorationIn request result).exec m).trace at ht
    subst hname
    rcases h with hunused | ⟨source, hretryable⟩
    · exact .of_unused hunused (hunused.of_calm (applyRestorationIn_calm request result m t ht))
    · exact .of_step hretryable ((applyRestorationIn_meets hretryable).crash t ht)

theorem follows_run (h : Retrying name m) (attempts : List (RetryCall B name × Nat)) :
    Follows name m (run RetryCall.states m attempts) := by
  refine run_invariant_of_trace RetryCall.states (I := Follows name m) (fun t call ht u hu => ?_)
    attempts m (.refl h)
  exact ht.trans (call.follows ht.retrying u hu)

/-! ### Deciding -/

/-- The transcript that a candidate is compared with is the meeting's: the
candidate itself, or, before a promotion, the transcript that it was made from. -/
def UpToDate (meeting : MeetingRecord) (candidate : TranscriptRetryCandidate) : Prop :=
  meeting.artifacts.currentTranscript = some candidate.candidateTranscript ∨
    candidate.state ≠ .candidatePromoted ∧
      meeting.artifacts.currentTranscript.map ArtifactRef.sha256 =
        some candidate.sourceTranscriptSha256

instance (meeting : MeetingRecord) (candidate : TranscriptRetryCandidate) :
    Decidable (UpToDate meeting candidate) := by
  unfold UpToDate
  infer_instance

section

omit [DecidableEq B]

theorem Eligible.exists_transcript (h : Eligible name m meeting) :
    ∃ current, meeting.artifacts.currentTranscript = some current := by
  rw [← Option.isSome_iff_exists]
  have hrule := h.valid.lifecycle
  unfold MeetingRecord.validateLifecycle at hrule
  rcases h.lifecycle with hl | hl | hl <;> simp only [hl] at hrule
  · simp only [check_bind_eq_ok, refuseIf_eq_ok, not_or, not_not] at hrule
    exact hrule.1.2.1
  · simp only [refuseIf_eq_ok, not_or, not_not] at hrule
    exact hrule.2.1
  · simp only [refuseIf_eq_ok, not_or, not_not] at hrule
    exact hrule.2.1

/-- The only check of a stored candidate that can fail is that of its source. -/
theorem validateReceipt_of_stored (heligible : Eligible name m meeting)
    (hsource : source.Of meeting) (hstored : StoredCandidate name source m id candidate) :
    validateReceipt name meeting candidate m = refuseIf (¬ UpToDate meeting candidate) .staleSource := by
  obtain ⟨current, hcurrent⟩ := heligible.exists_transcript
  have hsession := hsource.session
  have hmicrophone := hsource.microphone
  have hsystem := hsource.system
  rw [Option.map_eq_some_iff] at hsession hmicrophone hsystem
  obtain ⟨session, hsession, hsession'⟩ := hsession
  obtain ⟨microphone, hmicrophone, hmicrophone'⟩ := hmicrophone
  obtain ⟨system, hsystem, hsystem'⟩ := hsystem
  have hidentity : ¬ (candidate.meetingId ≠ name ∨ candidate.meetingId ≠ meeting.meetingId) := by
    rw [hstored.meetingId, heligible.identity]
    simp
  have hup : UpToDate meeting candidate ↔ current = candidate.candidateTranscript ∨
      candidate.state ≠ .candidatePromoted ∧ current.sha256 = candidate.sourceTranscriptSha256 := by
    unfold UpToDate
    rw [hcurrent, Option.some.injEq, Option.map_some, Option.some.injEq]
  unfold validateReceipt
  rw [hstored.shape, ok_bind, refuseIf_of_not hidentity, ok_bind, hcurrent, orRefuse_some, ok_bind,
    hsession, orRefuse_some, ok_bind, hmicrophone, orRefuse_some, ok_bind, hsystem, orRefuse_some,
    ok_bind, hstored.verified, mapError_ok]
  by_cases hpromoted : candidate.state = .candidatePromoted
  · rw [if_pos hpromoted]
    by_cases hsame : current = candidate.candidateTranscript
    · rw [refuseIf_of_not (not_not_intro hsame), ok_bind,
        refuseIf_of_not (not_not_intro (hup.mpr (.inl hsame)))]
    · have hstale : ¬ UpToDate meeting candidate := fun h =>
        (hup.mp h).elim hsame fun h => h.1 hpromoted
      rw [refuseIf_of hsame, error_bind, refuseIf_of hstale]
  · rw [if_neg hpromoted]
    by_cases hsame : current = candidate.candidateTranscript
    · rw [if_pos hsame, refuseIf_of_not (not_not_intro (hup.mpr (.inl hsame)))]
    · rw [if_neg hsame]
      by_cases hfresh : current.sha256 = candidate.sourceTranscriptSha256
      · have hbound : ¬ (current.sha256 ≠ candidate.sourceTranscriptSha256 ∨
            session.sha256 ≠ candidate.captureSessionSha256 ∨
            microphone.sha256 ≠ candidate.microphoneAudioSha256 ∨
            system.sha256 ≠ candidate.systemAudioSha256) := by
          rw [hsession', hmicrophone', hsystem', hstored.session, hstored.microphone, hstored.system]
          simp [hfresh]
        rw [refuseIf_of_not hbound, ok_bind,
          refuseIf_of_not (not_not_intro (hup.mpr (.inr ⟨hpromoted, hfresh⟩)))]
      · have hstale : ¬ UpToDate meeting candidate := fun h =>
          (hup.mp h).elim hsame fun h => hfresh h.2
        rw [refuseIf_of (.inl hfresh), error_bind, refuseIf_of hstale]

theorem loadDecision_of_stored (heligible : Eligible name m meeting) (hsource : source.Of meeting)
    (hstored : StoredCandidate name source m id candidate) : loadDecision name id m =
      if UpToDate meeting candidate then .ok (meeting, candidate) else .error .staleSource := by
  have hpresent : ∀ p, requirePrivateDirectory m.tree p = .ok () →
      requirePrivateIfPresent m.tree p = .ok () := by
    intro p hp
    unfold requirePrivateIfPresent
    rw [hp]
    split <;> rfl
  unfold loadDecision checkOperationDir
  rw [loadSource_eq_ok.mpr heligible, ok_bind, hpresent _ hstored.retryPrivate, ok_bind,
    hpresent _ hstored.isPrivate, ok_bind, hstored.loadReceipt, ok_bind,
    validateReceipt_of_stored heligible hsource hstored]
  by_cases hup : UpToDate meeting candidate
  · rw [if_pos hup, refuseIf_of_not (not_not_intro hup)]
    rfl
  · rw [if_neg hup, refuseIf_of hup]
    rfl

end

/-- What both decisions answer when the candidate was decided before. -/
def repeatedAnswer (meeting : MeetingRecord) (candidate : TranscriptRetryCandidate) :
    Except TranscriptRetryError TranscriptRetryOutcome :=
  if UpToDate meeting candidate then .ok candidate.state else .error .staleSource

section

omit [DecidableEq B]

theorem keepCurrentIn_of_decided (heligible : Eligible name m meeting) (hsource : source.Of meeting)
    (hstored : StoredCandidate name source m id candidate)
    (hdecided : candidate.state ≠ .candidateAvailableForComparison) (nonce : Uuid) :
    (keepCurrentIn nonce name id).exec m = ⟨[], repeatedAnswer meeting candidate⟩ := by
  have hload := loadDecision_of_stored heligible hsource hstored
  unfold keepCurrentIn repeatedAnswer
  split at hload
  · rename_i hup
    rw [bind_inspect_of_ok _ hload, if_pos hup]
    dsimp only
    rw [if_neg fun h => hdecided h.1, if_pos hdecided]
    rfl
  · rename_i hstale
    rw [bind_inspect_of_error _ hload, if_neg hstale]

theorem promoteCandidateIn_of_decided (heligible : Eligible name m meeting)
    (hsource : source.Of meeting) (hstored : StoredCandidate name source m id candidate)
    (hdecided : candidate.state ≠ .candidateAvailableForComparison) (nonce : Uuid) :
    (promoteCandidateIn nonce name id).exec m = ⟨[], repeatedAnswer meeting candidate⟩ := by
  have hload := loadDecision_of_stored heligible hsource hstored
  unfold promoteCandidateIn repeatedAnswer
  split at hload
  · rename_i hup
    rw [bind_inspect_of_ok _ hload, if_pos hup]
    dsimp only
    cases hstate : candidate.state with
    | candidateAvailableForComparison => exact absurd hstate hdecided
    | currentKept => rfl
    | candidatePromoted =>
      have hcurrent : meeting.artifacts.currentTranscript = some candidate.candidateTranscript :=
        hup.resolve_right fun h => h.1 hstate
      dsimp only
      rw [bind_lift_of_ok _ _ (refuseIf_of_not (not_not_intro hcurrent))]
      rfl
  · rename_i hstale
    rw [bind_inspect_of_error _ hload, if_neg hstale]

/-- A receipt can always be replaced over a free temporary name. -/
theorem writeReceipt_answers (hroot : requirePrivateDirectory m.tree (.entry []) = .ok ())
    (hstored : StoredCandidate name source m id candidate)
    (hfree : m.tree.node (.temporary (receiptComponents id) nonce) = none)
    (state : TranscriptRetryState) :
    ∃ trace, (MeetingDirectory.inTree (writeReceipt nonce { candidate with state })).exec m =
      ⟨trace, .ok ()⟩ := by
  have hid := hstored.operationId
  subst hid
  obtain ⟨mode, hdir, -⟩ := requirePrivateDirectory_eq_ok.mp hstored.isPrivate
  have habove : ∀ q ∈ Location.ancestors (operationDir candidate.operationId),
      ∃ mode, m.tree.node q = some (.directory mode) := by
    intro q hq
    have hcases : q = .entry ["transcript-retry"] ∨ q = .entry [] := by
      simpa [Location.ancestors, operationDir, MeetingPath.above] using hq
    rcases hcases with rfl | rfl
    · obtain ⟨mode, hmode, -⟩ := requirePrivateDirectory_eq_ok.mp hstored.retryPrivate
      exact ⟨mode, hmode⟩
    · obtain ⟨mode, hmode, -⟩ := requirePrivateDirectory_eq_ok.mp hroot
      exact ⟨mode, hmode⟩
  have hname := namedIn_receipt candidate.operationId
  have hwritten := durableReplace_of_free (toVecPretty (B := B) { candidate with state }) hdir habove
    hname.parent rfl hfree hname.ne
  unfold MeetingDirectory.inTree writeReceipt
  exact ⟨_, by
    rw [zoom_apply, mapError_of_eq_ok hwritten]⟩

end

/-- What `keep_current` decides of a pending candidate. -/
def keptOutcome (meeting : MeetingRecord) (candidate : TranscriptRetryCandidate) :
    TranscriptRetryOutcome :=
  if meeting.artifacts.currentTranscript = some candidate.candidateTranscript then .candidatePromoted
  else .currentKept

omit [DecidableEq B] in
/-- A pending candidate that is up to date is decided by writing its receipt. -/
theorem keepCurrentIn_of_pending (heligible : Eligible name m meeting) (hsource : source.Of meeting)
    (hstored : StoredCandidate name source m id candidate)
    (hpending : candidate.state = .candidateAvailableForComparison)
    (hfree : m.tree.node (.temporary (receiptComponents id) nonce) = none)
    (hup : UpToDate meeting candidate) : ∃ trace, (MeetingDirectory.inTree (writeReceipt nonce
        { candidate with state := keptOutcome meeting candidate })).exec m = ⟨trace, .ok ()⟩ ∧
      (keepCurrentIn nonce name id).exec m = ⟨trace, .ok (keptOutcome meeting candidate)⟩ := by
  have hload := loadDecision_of_stored heligible hsource hstored
  rw [if_pos hup] at hload
  obtain ⟨trace, hwritten⟩ := writeReceipt_answers heligible.isPrivate hstored hfree
    (keptOutcome meeting candidate)
  refine ⟨trace, hwritten, ?_⟩
  unfold keptOutcome at hwritten ⊢
  unfold keepCurrentIn
  rw [bind_inspect_of_ok _ hload]
  dsimp only
  by_cases hcurrent : meeting.artifacts.currentTranscript = some candidate.candidateTranscript
  · rw [if_pos hcurrent] at hwritten
    rw [if_pos ⟨hpending, hcurrent⟩, if_pos hcurrent, bind_of_eq_ok _ hwritten]
    exact congrArg (fun steps => Outcome.mk steps _) (List.append_nil trace)
  · rw [if_neg hcurrent] at hwritten
    rw [if_neg fun h => hcurrent h.2, if_neg (not_not_intro hpending), if_neg hcurrent,
      bind_of_eq_ok _ hwritten]
    exact congrArg (fun steps => Outcome.mk steps _) (List.append_nil trace)

theorem keptOutcome_ne (meeting : MeetingRecord) (candidate : TranscriptRetryCandidate) :
    keptOutcome meeting candidate ≠ .candidateAvailableForComparison := by
  unfold keptOutcome
  split <;> nofun

omit [DecidableEq B] in
/-- The receipt then says what was answered. -/
theorem keepCurrentIn_stores (h : Retryable name source m) (heligible : Eligible name m meeting)
    (hsource : source.Of meeting) (hstored : StoredCandidate name source m id candidate)
    (hpending : candidate.state = .candidateAvailableForComparison)
    (hfree : m.tree.node (.temporary (receiptComponents id) nonce) = none)
    (hup : UpToDate meeting candidate) :
    QuietStep name source m (((keepCurrentIn nonce name id).exec m).final m) ∧
      StoredCandidate name source (((keepCurrentIn nonce name id).exec m).final m) id
        { candidate with state := keptOutcome meeting candidate } := by
  obtain ⟨trace, hwritten, hkept⟩ :=
    keepCurrentIn_of_pending heligible hsource hstored hpending hfree hup
  have hmeets := (writeReceipt_meets h hstored hpending nonce (keptOutcome_ne meeting candidate)).ok ()
  rw [hwritten] at hmeets
  rw [hkept]
  exact hmeets rfl

omit [DecidableEq B] in
theorem keepCurrentIn_of_stale (heligible : Eligible name m meeting) (hsource : source.Of meeting)
    (hstored : StoredCandidate name source m id candidate) (hstale : ¬ UpToDate meeting candidate)
    (nonce : Uuid) : (keepCurrentIn nonce name id).exec m = ⟨[], .error .staleSource⟩ := by
  have hload := loadDecision_of_stored heligible hsource hstored
  rw [if_neg hstale] at hload
  unfold keepCurrentIn
  rw [bind_inspect_of_error _ hload]

end Runs

/-! ## The account -/

section Account

variable {B : Type} [Platform B] [DecidableEq B]

/-- A promotion of a pending candidate whose source is the transcript. -/
def Promotes (name : String) (id : Uuid) (m t : MeetingDirectory B) : Prop :=
  ∃ meeting candidate, loadSource name m = .ok meeting ∧ loadReceipt m.tree id = .ok candidate ∧
    candidate.state = .candidateAvailableForComparison ∧
    meeting.artifacts.currentTranscript.map ArtifactRef.sha256 =
      some candidate.sourceTranscriptSha256 ∧
    t.record = some (toVecPretty (promotedRecord meeting candidate))

/-- An answer is the decision in the receipt, and a promotion is answered where
the candidate is the transcript. -/
def Answered (name : String) (id : Uuid) (outcome : TranscriptRetryOutcome) (t : MeetingDirectory B) :
    Prop :=
  outcome ≠ .candidateAvailableForComparison ∧
    ∃ candidate, loadReceipt t.tree id = .ok candidate ∧ candidate.state = outcome ∧
      (outcome = .candidatePromoted → ∃ meeting, loadSource name t = .ok meeting ∧
        meeting.artifacts.currentTranscript = some candidate.candidateTranscript)

/-- What holds of a meeting whatever retries and restorations went before. -/
structure RetryAccount (name : String) (m : MeetingDirectory B) : Prop where
  /-- At most one candidate is pending. -/
  single : ∀ id id' candidate candidate', loadReceipt m.tree id = .ok candidate →
    loadReceipt m.tree id' = .ok candidate' → candidate.state = .candidateAvailableForComparison →
    candidate'.state = .candidateAvailableForComparison → id = id'
  /-- No later run changes a decision. -/
  permanent : ∀ id candidate, loadReceipt m.tree id = .ok candidate →
    candidate.state ≠ .candidateAvailableForComparison → ∀ later : List (RetryCall B name × Nat),
      loadReceipt (run RetryCall.states m later).tree id = .ok candidate
  /-- To decide again changes nothing: it answers the decision, or refuses it as stale. -/
  repeated : ∀ id candidate, loadReceipt m.tree id = .ok candidate →
    candidate.state ≠ .candidateAvailableForComparison → ∃ meeting, loadSource name m = .ok meeting ∧
      ∀ nonce, (keepCurrentIn nonce name id).exec m = ⟨[], repeatedAnswer meeting candidate⟩ ∧
        (promoteCandidateIn nonce name id).exec m = ⟨[], repeatedAnswer meeting candidate⟩
  /-- Creating a candidate leaves the record. -/
  created : ∀ choices id bytes binding,
    ∀ t ∈ ((createCandidateIn choices name id bytes binding).exec m).trace, t.record = m.record
  /-- So does keeping the transcript. -/
  kept : ∀ nonce id, ∀ t ∈ ((keepCurrentIn nonce name id).exec m).trace, t.record = m.record
  /-- Promoting leaves it too, or promotes. -/
  promoted : ∀ nonce id, ∀ t ∈ ((promoteCandidateIn nonce name id).exec m).trace,
    t.record = m.record ∨ Promotes name id m t
  /-- `keep_current` reports what it recorded. -/
  keepAnswers : ∀ nonce id outcome, ((keepCurrentIn nonce name id).exec m).result = .ok outcome →
    Answered name id outcome (((keepCurrentIn nonce name id).exec m).final m)
  /-- So does `promote_candidate`. -/
  promoteAnswers : ∀ nonce id outcome,
    ((promoteCandidateIn nonce name id).exec m).result = .ok outcome →
      Answered name id outcome (((promoteCandidateIn nonce name id).exec m).final m)
  /-- A pending candidate can be decided exactly while its source is the transcript. -/
  decidable : ∀ id candidate, loadReceipt m.tree id = .ok candidate →
    candidate.state = .candidateAvailableForComparison → ∃ meeting, loadSource name m = .ok meeting ∧
      ∀ nonce, m.tree.node (.temporary (receiptComponents id) nonce) = none →
        if UpToDate meeting candidate then
          ((keepCurrentIn nonce name id).exec m).result = .ok (keptOutcome meeting candidate)
        else (keepCurrentIn nonce name id).exec m = ⟨[], .error .staleSource⟩

variable {name : String} {source : CapturedDigests} {m t : MeetingDirectory B} {id : Uuid}
  {candidate : TranscriptRetryCandidate}

section

omit [DecidableEq B]

theorem Decided.answered {outcome : TranscriptRetryOutcome} (h : Decided name source id outcome t) :
    Answered name id outcome t := by
  obtain ⟨candidate, hstored, hstate, hpromoted⟩ := h.receipt
  refine ⟨h.terminal, candidate, hstored.loadReceipt, hstate, fun houtcome => ?_⟩
  obtain ⟨meeting, hmeeting, hcurrent⟩ := hpromoted houtcome
  exact ⟨meeting, loadSource_eq_ok.mpr hmeeting, hcurrent⟩

theorem PromoteStep.promotes (h : PromoteStep name source id m t) :
    t.record = m.record ∨ Promotes name id m t := by
  apply h.2.imp_right
  intro hpromoted
  obtain ⟨meeting, candidate, hmeeting, hstored, hpending, hcurrent, hrecord⟩ := hpromoted
  exact ⟨meeting, candidate, loadSource_eq_ok.mpr hmeeting, hstored.loadReceipt, hpending, hcurrent,
    hrecord⟩

/-- A call that decides looks at a meeting that a retry may work on. -/
theorem Retrying.of_loadDecision (h : Retrying name m) (id : Uuid) :
    (∃ source, Retryable name source m) ∨ ∀ found, loadDecision name id m ≠ .ok found := by
  by_cases hfound : ∃ found, loadDecision name id m = .ok found
  · obtain ⟨⟨meeting, candidate⟩, hfound⟩ := hfound
    exact .inl (h.retryable (loadDecision_eq_ok.mp hfound).1)
  · exact .inr fun found hload => hfound ⟨found, hload⟩

end

omit [Platform B] [DecidableEq B] in
theorem exec_of_refused {α β : Type} {look : MeetingDirectory B → Except TranscriptRetryError α}
    {k : α → Durable (MeetingDirectory B) TranscriptRetryError β} (h : ∀ a, look m ≠ .ok a) :
    ∃ e, (Durable.inspect look >>= k).exec m = ⟨[], .error e⟩ := by
  cases hlook : look m with
  | ok a => exact absurd hlook (h a)
  | error e => exact ⟨e, bind_inspect_of_error k hlook⟩

omit [DecidableEq B] in
theorem keepCurrentIn_account (h : Retrying name m) (nonce id : Uuid) :
    (∀ t ∈ ((keepCurrentIn nonce name id).exec m).trace, t.record = m.record) ∧
      ∀ outcome, ((keepCurrentIn nonce name id).exec m).result = .ok outcome →
        Answered name id outcome (((keepCurrentIn nonce name id).exec m).final m) := by
  rcases h.of_loadDecision id with ⟨source, hretryable⟩ | hrefused
  · have hmeets := keepCurrentIn_meets hretryable nonce id
    exact ⟨fun t ht => (hmeets.crash t ht).2, fun outcome hok => (hmeets.ok outcome hok).2.answered⟩
  · unfold keepCurrentIn
    obtain ⟨e, he⟩ := exec_of_refused hrefused
    rw [he]
    exact ⟨fun t ht => (List.not_mem_nil ht).elim, fun outcome hok => by cases hok⟩

theorem promoteCandidateIn_account (h : Retrying name m) (nonce id : Uuid) :
    (∀ t ∈ ((promoteCandidateIn nonce name id).exec m).trace,
        t.record = m.record ∨ Promotes name id m t) ∧
      ∀ outcome, ((promoteCandidateIn nonce name id).exec m).result = .ok outcome →
        Answered name id outcome (((promoteCandidateIn nonce name id).exec m).final m) := by
  rcases h.of_loadDecision id with ⟨source, hretryable⟩ | hrefused
  · have hmeets := promoteCandidateIn_meets hretryable nonce id
    exact ⟨fun t ht => (hmeets.crash t ht).promotes,
      fun outcome hok => (hmeets.ok outcome hok).2.answered⟩
  · unfold promoteCandidateIn
    obtain ⟨e, he⟩ := exec_of_refused hrefused
    rw [he]
    exact ⟨fun t ht => (List.not_mem_nil ht).elim, fun outcome hok => by cases hok⟩

theorem createCandidateIn_record (h : Retrying name m) (choices : Choices) (id : Uuid) (bytes : B)
    (binding : TranscriptRetrySourceBinding) :
    ∀ t ∈ ((createCandidateIn choices name id bytes binding).exec m).trace, t.record = m.record := by
  intro t ht
  by_cases heligible : ∃ meeting, Eligible name m meeting
  · obtain ⟨meeting, heligible⟩ := heligible
    obtain ⟨source, hretryable⟩ := h.retryable heligible
    exact ((createCandidateIn_meets hretryable choices id bytes binding).crash t ht).2
  · unfold createCandidateIn at ht
    rw [trace_of_refused fun meeting hmeeting =>
      heligible ⟨meeting, loadSource_eq_ok.mp hmeeting⟩] at ht
    cases ht

theorem Retrying.account (h : Retrying name m) : RetryAccount name m where
  single id id' candidate candidate' hload hload' hpending hpending' := by
    obtain ⟨source, hretryable, hstored⟩ := h.stored hload
    exact hretryable.single id id' candidate candidate' hstored (hretryable.stored hload') hpending
      hpending'
  permanent id candidate hload hdecided later := (follows_run h later).decided id candidate hload hdecided
  repeated id candidate hload hdecided := by
    obtain ⟨source, hretryable, hstored⟩ := h.stored hload
    obtain ⟨meeting, heligible, hsource⟩ := hretryable.eligible
    exact ⟨meeting, loadSource_eq_ok.mpr heligible, fun nonce =>
      ⟨keepCurrentIn_of_decided heligible hsource hstored hdecided nonce,
        promoteCandidateIn_of_decided heligible hsource hstored hdecided nonce⟩⟩
  created choices id bytes binding := createCandidateIn_record h choices id bytes binding
  kept nonce id := (keepCurrentIn_account h nonce id).1
  promoted nonce id := (promoteCandidateIn_account h nonce id).1
  keepAnswers nonce id := (keepCurrentIn_account h nonce id).2
  promoteAnswers nonce id := (promoteCandidateIn_account h nonce id).2
  decidable id candidate hload hpending := by
    obtain ⟨source, hretryable, hstored⟩ := h.stored hload
    obtain ⟨meeting, heligible, hsource⟩ := hretryable.eligible
    refine ⟨meeting, loadSource_eq_ok.mpr heligible, fun nonce hfree => ?_⟩
    split
    · rename_i hup
      obtain ⟨trace, -, hkept⟩ :=
        keepCurrentIn_of_pending heligible hsource hstored hpending hfree hup
      rw [hkept]
    · rename_i hstale
      exact keepCurrentIn_of_stale heligible hsource hstored hstale nonce

/-- Whatever calls of the retry authority and restorations went before, each
stopped anywhere, the decisions of a meeting are accounted for. -/
theorem retries_accounted (hunused : ∀ id, m.tree.node (receiptPath id) = none)
    (attempts : List (RetryCall B name × Nat)) :
    RetryAccount name (run RetryCall.states m attempts) := by
  have hstart : Retrying name m := .inl fun id mode bytes hfile => by
    rw [hunused id] at hfile
    cases hfile
  exact (follows_run hstart attempts).retrying.account

end Account

/-! ## A restoration under a candidate -/

section Restored

variable {B : Type} [Platform B] [DecidableEq B] {m t : MeetingDirectory B} {source : CapturedDigests}

/-- A transcript revision is read again where the shallow places are kept. -/
theorem inspectRevision_of_shallow {meetingId : Uuid} {digest : String}
    {x : InspectedTranscriptRevision} (hkeeps : Keeps Shallow m.tree t.tree)
    (h : inspectRevision m.reader meetingId digest = .ok x) :
    inspectRevision t.reader meetingId digest = .ok x := by
  refine inspectRevision_mono (fun digest bytes hdigest hbytes => ?_) h
  have hplace : ReferencePlace (components (revisionPath digest)) := by
    rw [revisionPath_eq, components_digestNamed (by decide) (by decide) hdigest (by decide)]
    exact .transcript _
  unfold MeetingDirectory.reader at hbytes ⊢
  rw [if_neg hplace.ne_record] at hbytes ⊢
  exact ArtifactTree.reader_of_keeps hkeeps hplace.shallow.1 hplace.shallow.2 hbytes

/-- A stored result that fits the meeting is published, and leaves the receipts. -/
theorem applyRestorationIn_publishes {meeting : MeetingRecord} {current : ArtifactRef}
    {request : TranscriptRestorationRequest} {result : TranscriptRestorationResult}
    (heligible : Eligible request.meetingId.text m meeting)
    (hcurrent : meeting.artifacts.currentTranscript = some current)
    (hrecovery : classify request (some result) meeting current =
      .ok .applyValidatedResult)
    (hresult : inspectStoredResult m.reader request result = .ok ()) :
    let produced := publishedMeeting meeting result
    let t := ((applyRestorationIn request result).exec m).final m
    Eligible request.meetingId.text t produced ∧ (source.Of meeting → source.Of produced) ∧
      t.tree = m.tree := by
  have hpending : meeting.pendingStorageOperation.isSome = false := by rw [heligible.pending]; rfl
  have hprepared : prepareApply m.reader request result =
      .ok (publishedMeeting meeting result) := by
    unfold prepareApply
      loadAndVerifyMeeting
      requireNoPendingStorage
      requireCurrentTranscript
    simp only [bind_eq_ok, mapError_eq_ok, refuseIf_eq_ok, orRefuse_eq_ok]
    exact ⟨meeting, ⟨meeting, heligible.loaded, (), heligible.verified, rfl⟩, (), by simp [hpending],
      current, hcurrent, _, hrecovery, (), by simp, (), hresult, rfl⟩
  obtain ⟨hvalid, hproduced, hsource⟩ :=
    @published_eligible _ _ _ source _ _ _ _ _ heligible hprepared
  have hwritten := Recovery.writeMeeting_of_valid ((MeetingRecord.validate_eq_ok B _ _).mpr hvalid) m
  intro produced t
  have ht : t = { m with record := some (toVecPretty produced) } := by
    have hexec : t = ((applyRestorationIn request result).exec m).final m := rfl
    rw [hexec]
    unfold applyRestorationIn
    rw [bind_inspect_of_ok _ (by exact hprepared), mapError_of_eq_ok hwritten]
    rfl
  rw [ht]
  exact ⟨hproduced, hsource, rfl⟩

end Restored

section Sample

/-- The meeting of one withheld turn, as it stands on disk, with the view of a
restoration that was not published yet. -/
def retriedDirectory : MeetingDirectory SampleBytes where
  record := some (toVecPretty sampleMeeting)
  temporaries := []
  tree := List.toAList [⟨.entry [], .directory 0o700⟩,
    ⟨.entry ["attempt.json"], .file 0o600 Document.empty⟩,
    ⟨.entry ["ownership.json"], .file 0o600 Document.empty⟩,
    ⟨.entry ["capture"], .directory 0o700⟩,
    ⟨.entry ["capture", "session.json"], .file 0o600 Document.empty⟩,
    ⟨.entry (components microphoneAudioPath), .file 0o600 Document.empty⟩,
    ⟨.entry (components systemAudioPath), .file 0o600 Document.empty⟩,
    ⟨.entry ["transcript"], .directory 0o700⟩,
    ⟨.entry (components (revisionPath sampleBaseSha256)),
      .file 0o600 (Document.compact sampleBaseTranscript)⟩,
    ⟨.entry (components (revisionPath sampleViewSha256)), .file 0o600 (toVecPretty sampleView)⟩]
  queue := none

def retriedBinding (sha256 : String) : TranscriptRetrySourceBinding where
  sourceTranscriptSha256 := sampleBaseSha256
  captureSessionSha256 := emptySha256
  microphoneAudioSha256 := emptySha256
  systemAudioSha256 := emptySha256
  candidateTranscriptSha256 := sha256

/-- A candidate with these words. -/
def retriedCreate (bytes : SampleBytes) : RetryCall SampleBytes sampleMeetingId.text :=
  .createCandidate ⟨sampleNonce, sampleNonce⟩ sampleOperationId bytes
    (retriedBinding (Platform.sha256 bytes))

/-- Other words than the meeting has. -/
def retriedWords : SampleBytes := Document.compact (.object [])

/-- The words that it has. -/
def retriedCopy : SampleBytes := Document.compact sampleBaseTranscript

def retriedRestore : RetryCall SampleBytes sampleMeetingId.text :=
  .resumeRestoration sampleRestoreRequest sampleRestoreResult rfl

def retriedKeep : RetryCall SampleBytes sampleMeetingId.text :=
  .keepCurrent sampleNonce sampleOperationId

/-- The meeting after calls that nothing interrupts. -/
def retried (calls : List (RetryCall SampleBytes sampleMeetingId.text)) :
    MeetingDirectory SampleBytes := complete RetryCall.states retriedDirectory calls

/-- What is read of the candidate, and what `keep_current` answers. -/
def retriedAnswer (calls : List (RetryCall SampleBytes sampleMeetingId.text)) :
    Option TranscriptRetryState × Except TranscriptRetryError TranscriptRetryOutcome :=
  ((loadReceipt (retried calls).tree sampleOperationId).toOption.map TranscriptRetryCandidate.state,
    ((keepCurrentIn sampleNonce sampleMeetingId.text sampleOperationId).exec (retried calls)).result)

theorem receipt_retriedDirectory (id : Uuid) : retriedDirectory.tree.node (receiptPath id) = none := rfl

theorem retries_accounted_sample : RetryAccount sampleMeetingId.text
    (run RetryCall.states retriedDirectory [(retriedCreate retriedWords, 40), (retriedRestore, 2)]) :=
  retries_accounted receipt_retriedDirectory _

/-! The directory holds the files of the sample, once its worker has stored the view. -/

def viewFiles : Files SampleBytes := (sampleRestoreWorker.exec sampleFiles).final sampleFiles

theorem reads_viewFiles : sampleFiles.reader.KeepsArtifacts viewFiles.reader := by
  apply Files.KeepsArtifacts.reader
  intro path _ bytes hbytes
  have hfiles : viewFiles path = if path = revisionPath sampleViewSha256 then
      some (toVecPretty sampleView) else sampleFiles path := rfl
  rw [hfiles]
  split
  · rename_i h
    rw [h, show sampleFiles (revisionPath sampleViewSha256) = none from rfl] at hbytes
    cases hbytes
  · exact hbytes

theorem reads_retriedDirectory : viewFiles.reader.KeepsArtifacts retriedDirectory.reader := by
  intro path hpath bytes hread
  have hfiles : (if path = revisionPath sampleViewSha256 then some (toVecPretty sampleView)
      else sampleFiles path) = some bytes := Files.reader_eq_ok.mp hread
  unfold MeetingDirectory.reader
  rw [if_neg hpath]
  unfold sampleFiles at hfiles
  rw [if_neg hpath] at hfiles
  split at hfiles
  · rename_i h
    cases hfiles
    rw [h]
    decide +kernel
  · split at hfiles
    · rename_i h
      cases hfiles
      rw [h]
      decide +kernel
    · split at hfiles
      · rename_i h
        cases hfiles
        simp only [List.mem_cons, List.not_mem_nil, or_false] at h
        rcases h with rfl | rfl | rfl | rfl | rfl <;> decide +kernel
      · cases hfiles

theorem eligible_retriedDirectory : Eligible sampleMeetingId.text retriedDirectory sampleMeeting where
  isPrivate := rfl
  loaded := loadMeeting_of_read (loadMeeting_eq_ok loadMeeting_sample) rfl
  identity := rfl
  retained := rfl
  lifecycle := .inr (.inl rfl)
  pending := rfl
  verified := verifyRecordArtifacts_of_keeps
    ((MeetingRecord.validate_eq_ok _ _ _).mp (loadMeeting_eq_ok loadMeeting_sample)) (by decide)
    (reads_viewFiles.trans reads_retriedDirectory) verifyRecordArtifacts_sample

theorem inspectStoredResult_retriedDirectory :
    inspectStoredResult retriedDirectory.reader sampleRestoreRequest
      sampleRestoreResult = .ok () := by
  have hreads : ∀ {old new : Reader SampleBytes}, old.KeepsArtifacts new → ∀ digest x,
      inspectRevision old sampleMeetingId digest = .ok x →
        inspectRevision new sampleMeetingId digest = .ok x := fun hkeeps digest x hx =>
    inspectRevision_mono (fun _ bytes _ hbytes => hkeeps _ (revisionPath_ne_record _) bytes hbytes) hx
  have hsource := hreads reads_viewFiles _ _
    (Restoration.inspectRevision_of_requireCurrentSource requireCurrentSource_sample)
  exact inspectStoredResult_of_inspect (hreads reads_retriedDirectory)
    (inspectStoredResult_of_worker hsource inspectWorkerResult_sample)

def retriedSource : CapturedDigests := ⟨emptySha256, emptySha256, emptySha256⟩

theorem retryable_retriedDirectory :
    Retryable sampleMeetingId.text retriedSource retriedDirectory where
  eligible := ⟨sampleMeeting, eligible_retriedDirectory, rfl, rfl, rfl⟩
  receipts id mode bytes hfile := by
    rw [receipt_retriedDirectory id] at hfile
    cases hfile
  single id _ _ _ hstored := by
    have hfile := hstored.file
    rw [receipt_retriedDirectory id] at hfile
    cases hfile

/-- The candidate that is made of these words. -/
def retriedCandidate (bytes : SampleBytes) : TranscriptRetryCandidate :=
  newCandidate sampleMeetingId.text sampleOperationId (retriedBinding (Platform.sha256 bytes))

/-- The candidate is stored, and then its receipt. -/
def storedFirst (bytes : SampleBytes) :
    Outcome (MeetingDirectory SampleBytes) TranscriptRetryError Unit :=
  (storeCandidate sampleNonce bytes (retriedCandidate bytes).candidateTranscript).exec
    retriedDirectory

def storedSecond (bytes : SampleBytes) :
    Outcome (MeetingDirectory SampleBytes) TranscriptRetryError Unit :=
  (MeetingDirectory.inTree (storeReceipt sampleNonce (retriedCandidate bytes))).exec
    ((storedFirst bytes).final retriedDirectory)

/-- What there is to check before the sample stores a candidate. -/
structure Admissible (bytes : SampleBytes) : Prop where
  size : ¬ (ByteString.size bytes = 0 ∨ ByteString.size bytes > maxTranscriptBytes)
  binding : validateBindingShape (retriedBinding (Platform.sha256 bytes)) = .ok ()
  admitted : admitCandidate sampleMeetingId.text sampleOperationId
    (retriedBinding (Platform.sha256 bytes)) sampleMeeting retriedDirectory = .ok ()
  stored : (storedFirst bytes).result = .ok () ∧ (storedSecond bytes).result = .ok () ∧
    ((storedSecond bytes).final ((storedFirst bytes).final retriedDirectory)).tree.node
      (.temporary (receiptComponents sampleOperationId) sampleNonce) = none ∧
    ((storedSecond bytes).final ((storedFirst bytes).final retriedDirectory)).tree.node
      (receiptPath sampleOperationId) = some (.file 0o600 (toVecPretty (retriedCandidate bytes)))

theorem admissible_words : Admissible retriedWords := by
  refine ⟨?_, ?_, ?_, ?_⟩ <;> decide +kernel

theorem admissible_copy : Admissible retriedCopy := by
  refine ⟨?_, ?_, ?_, ?_⟩ <;> decide +kernel

theorem absent_retriedDirectory :
    checkOperationDir sampleOperationId retriedDirectory.tree = .ok () ∧
      retriedDirectory.tree.node (operationDir sampleOperationId) = none := by
  decide +kernel

variable {bytes : SampleBytes}

theorem exec_retriedCreate (h : Admissible bytes) :
    (createCandidateIn ⟨sampleNonce, sampleNonce⟩ sampleMeetingId.text sampleOperationId bytes
      (retriedBinding (Platform.sha256 bytes))).exec retriedDirectory =
    ⟨(storedFirst bytes).trace ++ (storedSecond bytes).trace, .ok .candidateAvailableForComparison⟩ := by
  refine createCandidateIn_of_admitted eligible_retriedDirectory ?_ ?_ ?_
    ?_ ?_ ?_ ?_ ?_ ?_ ?_
  · exact h.size
  · exact h.binding
  · rfl
  · exact absent_retriedDirectory.1
  · exact absent_retriedDirectory.2
  · exact h.admitted
  · dsimp only [storedFirst, retriedCandidate]
  · dsimp only [storedSecond, retriedCandidate]
  · exact h.stored.1
  · exact h.stored.2.1

theorem retried_restore (calls : List (RetryCall SampleBytes sampleMeetingId.text)) :
    retried (calls ++ [retriedRestore]) =
      ((applyRestorationIn sampleRestoreRequest sampleRestoreResult).exec (retried calls)).final
        (retried calls) := by
  unfold retried complete
  rw [List.foldl_append]
  generalize List.foldl _ retriedDirectory calls = m
  rfl

theorem retried_keep (calls : List (RetryCall SampleBytes sampleMeetingId.text)) :
    retried (calls ++ [retriedKeep]) =
      ((keepCurrentIn sampleNonce sampleMeetingId.text sampleOperationId).exec (retried calls)).final
        (retried calls) := by
  unfold retried complete
  rw [List.foldl_append]
  generalize List.foldl _ retriedDirectory calls = m
  rfl

/-- A candidate of the sample, pending or decided, in a meeting that still has the
record of the sample. -/
structure Waits (candidate : TranscriptRetryCandidate) (m : MeetingDirectory SampleBytes) : Prop where
  quiet : QuietStep sampleMeetingId.text retriedSource retriedDirectory m
  stored : StoredCandidate sampleMeetingId.text retriedSource m sampleOperationId candidate

variable {m : MeetingDirectory SampleBytes}

theorem Waits.eligible {candidate : TranscriptRetryCandidate} (h : Waits candidate m) :
    Eligible sampleMeetingId.text m sampleMeeting :=
  eligible_retriedDirectory.of_shallow h.quiet.1.keeps h.quiet.2

theorem source_sampleMeeting : retriedSource.Of sampleMeeting := ⟨rfl, rfl, rfl⟩

theorem states_createCandidate (m : MeetingDirectory SampleBytes) (bytes : SampleBytes) :
    RetryCall.states (retriedCreate bytes) m =
      ((createCandidateIn ⟨sampleNonce, sampleNonce⟩ sampleMeetingId.text sampleOperationId bytes
        (retriedBinding (Platform.sha256 bytes))).exec m).trace := rfl

/-- The meeting once the candidate and its receipt are stored. -/
theorem retried_retriedCreate (h : Admissible bytes) : retried [retriedCreate bytes] =
      ((storedFirst bytes).trace ++ (storedSecond bytes).trace).getLastD retriedDirectory := by
  unfold retried
  rw [complete_cons, complete_nil, states_createCandidate, exec_retriedCreate h]

theorem storedLast_eq (bytes : SampleBytes) :
    ((storedFirst bytes).trace ++ (storedSecond bytes).trace).getLastD retriedDirectory =
      (storedSecond bytes).final ((storedFirst bytes).final retriedDirectory) := by
  unfold Outcome.final
  rw [getLastD_append]

/-- The candidate is stored and pending once it was created. -/
theorem waits_created (h : Admissible bytes) :
    Waits (retriedCandidate bytes) (retried [retriedCreate bytes]) ∧
      (retried [retriedCreate bytes]).tree.node
        (.temporary (receiptComponents sampleOperationId) sampleNonce) = none := by
  obtain ⟨-, -, hfree, hreceipt⟩ := h.stored
  rw [← storedLast_eq, ← retried_retriedCreate h] at hfree hreceipt
  have hmeets := Meets.of_exec (createCandidateIn_meets retryable_retriedDirectory
    ⟨sampleNonce, sampleNonce⟩ sampleOperationId bytes (retriedBinding (Platform.sha256 bytes)))
    (exec_retriedCreate h)
  rw [← retried_retriedCreate h] at hmeets
  obtain ⟨hquiet, candidate, hcandidate, -⟩ := hmeets
  have hfile := hcandidate.file
  rw [hreceipt, Option.some.injEq, Node.file.injEq] at hfile
  rw [← toVecPretty_injective hfile.2] at hcandidate
  exact ⟨⟨hquiet, hcandidate⟩, hfree⟩

/-- The restoration is published under a candidate that waits. -/
theorem restored_waiting {candidate : TranscriptRetryCandidate} (h : Waits candidate m) :
    let t := ((applyRestorationIn sampleRestoreRequest sampleRestoreResult).exec m).final m
    let produced := publishedMeeting sampleMeeting sampleRestoreResult
    Eligible sampleMeetingId.text t produced ∧ retriedSource.Of produced ∧
      StoredCandidate sampleMeetingId.text retriedSource t sampleOperationId candidate := by
  have hresult := inspectStoredResult_of_inspect
    (fun _ _ hx => inspectRevision_of_shallow h.quiet.1.keeps hx) inspectStoredResult_retriedDirectory
  have hfits := inspectStoredResult_eq_ok hresult
  have hrecovery : classify sampleRestoreRequest
      (some sampleRestoreResult) sampleMeeting ⟨revisionPath sampleBaseSha256, sampleBaseSha256⟩ =
      .ok .applyValidatedResult := by
    have hdigest := Restoration.validateDigest_source hfits.validRequest
    have hsource : sampleRestoreRequest.sourceTranscriptSha256 = sampleBaseSha256 := rfl
    rw [hsource] at hdigest
    unfold classify classifyRestorationRecovery
    rw [hfits.validRequest, ok_bind, hdigest, ok_bind]
    dsimp only
    rw [hfits.validResult, ok_bind]
    rfl
  obtain ⟨heligible, hsource, htree⟩ := @applyRestorationIn_publishes _ _ _ _ retriedSource _ _
    sampleRestoreRequest _ h.eligible rfl hrecovery hresult
  have hcalm : Calm (fun _ => False) m.tree
      (((applyRestorationIn sampleRestoreRequest sampleRestoreResult).exec m).final m).tree := by
    rw [htree]
    exact .refl _
  exact ⟨heligible, hsource source_sampleMeeting, h.stored.of_calm hcalm not_false⟩

/-- The decision to keep the transcript, taken where the candidate waits. -/
theorem kept_waiting (h : Waits (retriedCandidate bytes) m)
    (hfree : m.tree.node (.temporary (receiptComponents sampleOperationId) sampleNonce) = none) :
    ((keepCurrentIn sampleNonce sampleMeetingId.text sampleOperationId).exec m).result =
        .ok (keptOutcome sampleMeeting (retriedCandidate bytes)) ∧
      Waits { retriedCandidate bytes with state := keptOutcome sampleMeeting (retriedCandidate bytes) }
        (((keepCurrentIn sampleNonce sampleMeetingId.text sampleOperationId).exec m).final m) := by
  have hup : UpToDate sampleMeeting (retriedCandidate bytes) := .inr ⟨by nofun, rfl⟩
  obtain ⟨trace, -, hkept⟩ :=
    keepCurrentIn_of_pending h.eligible source_sampleMeeting h.stored rfl hfree hup
  obtain ⟨hquiet, hstored⟩ := keepCurrentIn_stores h.quiet.1.retryable h.eligible
    source_sampleMeeting h.stored rfl hfree hup
  exact ⟨by rw [hkept], ⟨h.quiet.trans hquiet, hstored⟩⟩

/-- Once the transcript is another one, the candidate is stale. -/
theorem retriedAnswer_restored {calls : List (RetryCall SampleBytes sampleMeetingId.text)}
    {candidate : TranscriptRetryCandidate} (h : Waits candidate (retried calls))
    (hstale : ¬ UpToDate (publishedMeeting sampleMeeting
      sampleRestoreResult) candidate) :
    retriedAnswer (calls ++ [retriedRestore]) = (some candidate.state, .error .staleSource) := by
  obtain ⟨heligible, hsource, hstored⟩ := restored_waiting h
  rw [← retried_restore] at heligible hstored
  unfold retriedAnswer
  rw [hstored.loadReceipt, keepCurrentIn_of_stale heligible hsource hstored hstale]
  rfl

/-- A pending candidate that a restoration has overtaken cannot be decided, nor
can its decision be repeated; and a candidate that is the transcript is promoted
where the transcript is kept. -/
theorem keep_current_refused_or_promoted :
    retriedAnswer [retriedCreate retriedWords, retriedRestore] =
        (some .candidateAvailableForComparison, .error .staleSource) ∧
      retriedAnswer [retriedCreate retriedWords, retriedKeep, retriedRestore] =
        (some .currentKept, .error .staleSource) ∧
      retriedAnswer [retriedCreate retriedCopy] =
        (some .candidateAvailableForComparison, .ok .candidatePromoted) := by
  obtain ⟨hwords, hfree⟩ := waits_created admissible_words
  obtain ⟨hcopy, hfree'⟩ := waits_created admissible_copy
  obtain ⟨-, hdecided⟩ := kept_waiting hwords hfree
  rw [← retried_keep] at hdecided
  constructor
  · exact @retriedAnswer_restored [retriedCreate retriedWords] _ hwords (by decide)
  constructor
  · exact @retriedAnswer_restored [retriedCreate retriedWords, retriedKeep] _ hdecided (by decide)
  · unfold retriedAnswer
    rw [hcopy.stored.loadReceipt, (kept_waiting hcopy hfree').1]
    rfl

end Sample

end TranscriptRetry

end YawnApp.SessionCore
