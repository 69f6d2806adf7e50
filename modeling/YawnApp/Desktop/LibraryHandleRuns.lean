/-
  Desktop/LibraryHandleRuns.lean --- handles over runs of the reader.

  A handle that was returned is accepted at most once, by the action it is for
  and for its meeting, and it stays acceptable until a call ends it.  The export
  of a ready meeting breaks the last of these: it empties the store under the
  handles that it leaves in their maps.
-/
import YawnApp.Desktop.LibraryCalls

set_option autoImplicit false

namespace YawnApp.Desktop

open YawnApp.Foundation YawnApp.SessionCore YawnApp.SessionCore.LibraryRead HeldProjection
open MeetingLocks (permits)

namespace LibraryReader

/-! ## What ends a handle -/

/-- The handle that a call spends. -/
def Call.spends (call : Call) : Option (Capability × String) :=
  if call.looks then none else call.presents

/-- The calls after which a handle need not be acceptable: one with a handle that is unknown, one
that begins a new view, a reviewed action, and one that spends it.  The calls that open a source
spend all source handles, and a playback leaves the handle of the personal note. -/
def Ends (reader : LibraryReader) (given : Minted) (call : Call) : Prop :=
  (∃ capability handle, call.spends = some (capability, handle) ∧
    reader.table capability handle = none) ∨
  match call with
  | .snapshot _ | .search _ _ | .openSearchResult _ | .openNote _ _ | .authorizeAudioDeletion _
  | .authorizeTranscriptDeletion _ | .authorizeMeetingDeletion _
  | .authorizeInterruptedTranscription _ => True
  | .authorizeAudioPlayback _ _ => given.capability ≠ .operatorNote
  | .openEvidence _ _ | .openTranscript _ | .openExport _ => given.capability = .source
  | .openOperatorNote handle => given.capability = .operatorNote ∧ given.handle = handle
  | .withLockedMeeting _ | .retentionIdentities | .authorizeTrashRestore _
  | .retainTranscriptHandle _ | .retainOperatorNoteHandle _ | .retainAudioPlaybackHandle _ _ => False

section Unicode

variable [Unicode]

namespace Library

variable (lib : Library)

/-- The response to a call after some others. -/
def answer (calls : List Call) (call : Call) : Response := (lib.step (lib.run calls) call).1

/-- A call spends a handle and goes on with its meeting. -/
def Accepts (calls : List Call) (call : Call) (handle : String) : Prop :=
  ∃ capability meetingId, call.spends = some (capability, handle) ∧
    (lib.answer calls call).meetingId = some meetingId

/-- The handles that are returned in a run. -/
structure Integrity (calls : List Call) : Prop where
  /-- A handle is accepted once. -/
  once : ∀ before call middle later rest handle,
    calls = before ++ call :: (middle ++ later :: rest) → lib.Accepts before call handle →
    ¬ lib.Accepts (before ++ call :: middle) later handle
  /-- It is accepted by the action it is for, and for the meeting it was minted for. -/
  own : ∀ before call middle later rest given,
    calls = before ++ call :: (middle ++ later :: rest) → given ∈ (lib.answer before call).minted →
    ∀ capability meetingId, later.presents = some (capability, given.handle) →
    (lib.answer (before ++ call :: middle) later).meetingId = some meetingId →
    capability = given.capability ∧ meetingId = given.meetingId
  /-- It stays acceptable until a call ends it. -/
  kept : ∀ before call middle rest given,
    calls = before ++ call :: (middle ++ rest) → given ∈ (lib.answer before call).minted →
    (∀ first next last, middle = first ++ next :: last →
      ¬ Ends (lib.run (before ++ call :: first)) given next) →
    lib.Acceptable (lib.run (before ++ call :: middle)) given ∧
      ∀ own, given.capability ≠ .source →
        own.presents = some (given.capability, given.handle) →
        (lib.answer (before ++ call :: middle) own).meetingId = some given.meetingId

end Library

/-! ## What is dropped -/

variable {lib : Library} {reader later : LibraryReader} {call : Call} {hit : LibraryHit}
  {given : Minted} {handle : String}

section

omit [Unicode]

theorem hits_dropped (call : Call) : (reader.dropped call).hits = reader.hits := by
  cases call with
  | openEvidence handle _ | openTranscript handle | openExport handle =>
    change (reader.spendSource handle).hits = reader.hits
    unfold spendSource
    split <;> rfl
  | openOperatorNote handle =>
    change (reader.spendOperatorNote handle).hits = reader.hits
    unfold spendOperatorNote
    split <;> rfl
  | _ => rfl

theorem table_clearHandles (capability : Capability) (handle : String) :
    reader.clearHandles.table capability handle = none := by
  unfold table
  rw [held_clearHandles]
  rfl

/-- A handle that is spent is gone. -/
theorem table_dropped_of_spends {capability : Capability}
    (h : call.spends = some (capability, handle)) :
    (reader.dropped call).table capability handle = none := by
  cases call with
  | openEvidence spent _ | openTranscript spent | openExport spent =>
    cases h
    change (reader.spendSource handle).table .source handle = none
    unfold spendSource
    split
    · rfl
    · exact table_clearHandles _ _
  | openOperatorNote =>
    cases h
    change (reader.spendOperatorNote handle).table .operatorNote handle = none
    unfold spendOperatorNote
    split
    · unfold table held removeOperatorNoteHandle
      dsimp only
      rw [Function.update_self]
      rfl
    · exact table_clearHandles _ _
  | authorizeAudioPlayback =>
    cases h
    rfl
  | snapshot _ | search _ _ | retentionIdentities | authorizeTrashRestore _ | withLockedMeeting _
  | retainTranscriptHandle _ | retainOperatorNoteHandle _ | retainAudioPlaybackHandle _ _ => cases h
  | openSearchResult _ | openNote _ _ | authorizeAudioDeletion _ | authorizeTranscriptDeletion _
  | authorizeMeetingDeletion _ | authorizeInterruptedTranscription _ => exact table_clearHandles _ _

/-- A call that does not end a handle leaves it in its map. -/
theorem table_dropped_of_not_ends (hends : ¬ Ends reader given call) :
    (reader.dropped call).table given.capability given.handle =
      reader.table given.capability given.handle := by
  unfold Ends at hends
  rw [not_or] at hends
  obtain ⟨hknown, hends⟩ := hends
  have hknown : ∀ {capability handle}, call.spends = some (capability, handle) →
      reader.table capability handle ≠ none :=
    fun hspends hnone => hknown ⟨_, _, hspends, hnone⟩
  cases call with
  | openEvidence handle _ | openTranscript handle | openExport handle =>
    change (reader.spendSource handle).table _ _ = _
    cases hfound : reader.handles handle with
    | none =>
      refine absurd ?_ (hknown rfl)
      exact congrArg (Option.map _) hfound
    | some =>
      rw [spendSource_of_some hfound]
      unfold table
      rw [held_clearSourceHandles reader hends]
  | openOperatorNote handle =>
    change (reader.spendOperatorNote handle).table _ _ = _
    cases hfound : reader.operatorNoteHandles handle with
    | none =>
      refine absurd ?_ (hknown rfl)
      exact congrArg (Option.map _) hfound
    | some =>
      rw [spendOperatorNote_of_some hfound]
      obtain ⟨capability, other, meetingId⟩ := given
      unfold table
      by_cases hcapability : capability = .operatorNote
      · subst hcapability
        have hne : other ≠ handle := fun heq => hends ⟨rfl, heq⟩
        exact congrArg (Option.map _) (Function.update_of_ne hne ..)
      · rw [held_removeOperatorNoteHandle reader handle hcapability]
  | authorizeAudioPlayback _ _ =>
    change reader.clearNonNoteHandles.table _ _ = _
    rw [not_not.mp hends]
    rfl
  | withLockedMeeting _ | retentionIdentities | authorizeTrashRestore _ | retainTranscriptHandle _
  | retainOperatorNoteHandle _ | retainAudioPlaybackHandle _ _ => rfl
  | snapshot _ | search _ _ | openSearchResult _ | openNote _ _ | authorizeAudioDeletion _
  | authorizeTranscriptDeletion _ | authorizeMeetingDeletion _
  | authorizeInterruptedTranscription _ => exact absurd trivial hends

end

/-! ## What is accepted -/

/-- The hit of a handle that opens lies in the store. -/
theorem exists_stored {capability : Capability} {meetingId : String} {opened : OpenedLibraryHit}
    (hfound : reader.table capability handle = some hit)
    (h : lib.openSnapshot reader hit = .ok opened) (hid : opened.meetingId = meetingId) :
    ∃ hit found, reader.table capability handle = some hit ∧ reader.hits hit.key = some found ∧
      hitMeetingId found = meetingId := by
  obtain ⟨-, found, hstored, hsealed⟩ := openSnapshot_eq_ok.mp h
  exact ⟨hit, found, hfound, hstored, (openSealed_meetingId hsealed).symm.trans hid⟩

/-- The evidence of a claim is that of the claim's meeting. -/
theorem exists_stored_of_evidence {store : Retained} {ordinal : Nat} {excluded : Finset String}
    {evidence : OpenedClaimEvidence}
    (h : lib.projection.openClaimEvidenceExcluding store lib.rebuilds hit ordinal excluded =
      .ok evidence) :
    ∃ found, store hit.key = some found ∧ hitMeetingId found = evidence.meetingId := by
  unfold openClaimEvidenceExcluding openExcluding
    openInner at h
  simp only [bind_eq_ok, orRefuse_eq_ok] at h
  obtain ⟨opened, ⟨_, -, _, -, found, hfound, current, -, hsealed⟩, h⟩ := h
  have hmeeting := openSealed_meetingId hsealed
  split at h
  · simp only [bind_eq_ok] at h
    obtain ⟨_, -, _, -, _, -, _, -, _, -, _, -, heq⟩ := h
    cases heq
    exact ⟨found, hfound, hmeeting.symm⟩
  · cases h

section Accepted

variable (hcurrent : lib.isCurrent = true) {meetingId : String}

theorem authorize_accepted {map : LibraryReader → HandleMap LibraryHit} {answer : String → Response}
    {capability : Capability} (hmap : ∀ {handle hit}, map reader handle = some hit →
      reader.table capability handle = some hit)
    (hanswer : ∀ meetingId other, (answer meetingId).meetingId = some other → other = meetingId)
    {handle : String} (h : (lib.authorize map answer handle reader).1.meetingId = some meetingId) :
    ∃ hit found, reader.table capability handle = some hit ∧ reader.hits hit.key = some found ∧
      hitMeetingId found = meetingId := by
  unfold Library.authorize at h
  dsimp only at h
  split at h
  · cases h
  · rename_i hfound
    split at h
    · rename_i hopened
      exact exists_stored (hmap hfound) hopened (hanswer _ _ h).symm
    · cases h

theorem meetingView_meetingId {other : String}
    (h : (lib.meetingView meetingId reader).1.meetingId = some other) : other = meetingId := by
  unfold Library.meetingView Library.noteView Library.transcriptView at h
  dsimp only at h
  repeat' split at h
  all_goals exact (Option.some.inj h).symm

theorem exportMeeting_meetingId {other : String}
    (h : (lib.exportMeeting meetingId reader).1.meetingId = some other) : other = meetingId := by
  unfold Library.exportMeeting at h
  repeat' split at h
  all_goals first
    | exact (Option.some.inj h).symm
    | cases h

include hcurrent

/-- A call that goes on with a meeting found its handle in the map it looks in, and the hit of
the handle in the store. -/
theorem step_accepted {call : Call} {capability : Capability} {handle : String}
    (hpresents : call.presents = some (capability, handle))
    (h : (lib.step reader call).1.meetingId = some meetingId) :
    ∃ hit found, reader.table capability handle = some hit ∧ reader.hits hit.key = some found ∧
      hitMeetingId found = meetingId := by
  have hsource : ∀ {hit}, reader.handles handle = some hit → reader.table .source handle = some hit :=
    fun hfound => congrArg (Option.map _) hfound
  cases call with
  | snapshot _ | search _ _ | retentionIdentities | authorizeTrashRestore _
  | retainTranscriptHandle _ | retainOperatorNoteHandle _ | retainAudioPlaybackHandle _ _ =>
    cases hpresents
  | openSearchResult _ =>
    cases hpresents
    rw [Library.step, current_eq hcurrent] at h
    unfold Library.openSearchResultCurrent Library.retainSearchOpen at h
    split at h
    · cases h
    · rename_i hit hfound
      dsimp only at h
      split at h
      all_goals try
        rename_i hopened
        refine exists_stored (hsource hfound) hopened ?_
      all_goals repeat' split at h
      all_goals first
        | exact Option.some.inj h
        | cases h
  | openNote _ _ =>
    cases hpresents
    rw [Library.step, current_eq hcurrent] at h
    unfold Library.openNoteCurrent at h
    split at h
    · cases h
    · rename_i hit hfound
      dsimp only at h
      split at h
      · rename_i hopened
        refine exists_stored (hsource hfound) hopened ?_
        split at h
        · exact (meetingView_meetingId h).symm
        · exact Option.some.inj h
      · cases h
  | openEvidence _ _ =>
    cases hpresents
    rw [Library.step, current_eq hcurrent] at h
    unfold Library.openEvidenceCurrent at h
    split at h
    · cases h
    · rename_i hit hfound
      dsimp only at h
      split at h
      · cases h
      · rename_i hevidence
        obtain ⟨found, hstored, hid⟩ := exists_stored_of_evidence hevidence
        exact ⟨hit, found, hsource hfound, hstored, hid.trans (Option.some.inj h)⟩
  | openTranscript _ =>
    cases hpresents
    rw [Library.step, current_eq hcurrent] at h
    unfold Library.openTranscriptCurrent at h
    split at h
    · cases h
    · rename_i hit hfound
      dsimp only at h
      split at h
      all_goals try
        rename_i hopened
        refine exists_stored (hsource hfound) hopened ?_
      all_goals repeat' split at h
      all_goals first
        | exact Option.some.inj h
        | cases h
  | openExport _ =>
    cases hpresents
    rw [Library.step, current_eq hcurrent] at h
    unfold Library.openExportCurrent at h
    split at h
    · cases h
    · rename_i hit hfound
      dsimp only at h
      split at h
      · rename_i hopened
        exact exists_stored (hsource hfound) hopened (exportMeeting_meetingId h).symm
      · rename_i hopened
        exact exists_stored (hsource hfound) hopened (exportMeeting_meetingId h).symm
      · cases h
  | withLockedMeeting _ =>
    cases hpresents
    rw [Library.step] at h
    unfold Library.withLockedMeeting at h
    split at h
    · cases h
    · rename_i hit hfound
      split at h
      · rename_i hopened
        exact exists_stored (hsource hfound) hopened (Option.some.inj h)
      · cases h
  | openOperatorNote _ =>
    cases hpresents
    rw [Library.step, current_eq hcurrent] at h
    unfold Library.openOperatorNoteCurrent at h
    split at h
    · cases h
    · rename_i hit hfound
      dsimp only at h
      split at h
      · rename_i hopened
        split at h
        · cases h
        · exact exists_stored (congrArg (Option.map _) hfound) hopened (Option.some.inj h)
      · cases h
  | authorizeAudioPlayback =>
    cases hpresents
    rw [Library.step, current_eq hcurrent] at h
    unfold Library.authorizeAudioPlayback at h
    dsimp only at h
    split at h
    · cases h
    · rename_i playback hfound
      split at h
      · rename_i hopened
        refine exists_stored (congrArg (Option.map _) hfound) hopened ?_
        unfold Library.playMeeting at h
        repeat' split at h
        all_goals first
          | exact Option.some.inj h
          | cases h
      · cases h
  | authorizeAudioDeletion _ =>
    cases hpresents
    rw [Library.step, current_eq hcurrent] at h
    refine authorize_accepted (congrArg (Option.map _)) (fun meetingId other heq => ?_) h
    cases hretention : lib.audioRetention meetingId <;> rw [hretention] at heq <;>
      first | exact (Option.some.inj heq).symm | cases heq
  | authorizeTranscriptDeletion _ =>
    cases hpresents
    rw [Library.step, current_eq hcurrent] at h
    refine authorize_accepted (congrArg (Option.map _)) (fun meetingId other heq => ?_) h
    repeat' split at heq
    all_goals exact (Option.some.inj heq).symm
  | authorizeMeetingDeletion _ =>
    cases hpresents
    rw [Library.step, current_eq hcurrent] at h
    exact authorize_accepted (congrArg (Option.map _))
      (fun _ _ heq => (Option.some.inj heq).symm) h
  | authorizeInterruptedTranscription _ =>
    cases hpresents
    rw [Library.step, current_eq hcurrent] at h
    refine authorize_accepted (congrArg (Option.map _)) (fun meetingId other heq => ?_) h
    split at heq
    · exact (Option.some.inj heq).symm
    · cases heq

end Accepted

/-! ## The own action -/

omit [Unicode] in
theorem openHandle_inj {meetingId other : String}
    (h : lib.projection.openHandle meetingId = lib.projection.openHandle other) :
    meetingId = other := by
  have hkey : lib.projection.storeKey (meetingId ++ ":o") = lib.projection.storeKey (other ++ ":o") :=
    congrArg LibraryHit.key h
  exact (String.append_left_inj _).mp (storeKey_inj.mp hkey)

omit [Unicode] in
theorem active_of_isCurrent (h : lib.isCurrent = true) :
    lib.activeMeetingIds = lib.projection.excludedMeetingIds := by
  unfold Library.isCurrent validateSnapshotExcluding at h
  rw [Bool.and_eq_true] at h
  by_contra hne
  rw [refuseIf_of hne] at h
  exact Bool.false_ne_true h.2

/-- The call that a handle for a reviewed action, a playback or a note is for accepts it. -/
theorem step_own (hrows : lib.Rows) (hcurrent : lib.isCurrent = true) (hsound : lib.Sound reader)
    (h : lib.Acceptable reader given) (hcapability : given.capability ≠ .source)
    (hpresents : call.presents = some (given.capability, given.handle)) :
    (lib.step reader call).1.meetingId = some given.meetingId := by
  have htable := h.table_eq hsound hcapability
  obtain ⟨capability, handle, meetingId⟩ := given
  dsimp only at htable hcapability hpresents ⊢
  obtain ⟨x, hx, hhit⟩ := table_eq_some.mp htable
  obtain ⟨other, hstands⟩ := hsound.stands hcapability hx
  obtain rfl : other = meetingId := openHandle_inj (hstands.hit.symm.trans hhit)
  obtain ⟨hit, opened, hfound, hopened, -⟩ := h
  dsimp only at hfound
  obtain rfl : lib.projection.openHandle other = hit := Option.some.inj (htable.symm.trans hfound)
  obtain ⟨title, folder, artifact, rfl⟩ := opened_of_openHandle hsound.filed hopened
  have hactive : other ∉ lib.activeMeetingIds := by
    obtain ⟨row, hrow⟩ := hstands.listed
    rw [active_of_isCurrent hcurrent, ← (row?_eq_some hrow).2]
    exact (hrows row (row?_eq_some hrow).1).included
  have hauthorize : ∀ (map : LibraryReader → HandleMap LibraryHit) (answer : String → Response),
      map reader handle = some (lib.projection.openHandle other) →
      (lib.authorize map answer handle reader).1 = answer other := by
    intro map answer hmap
    unfold Library.authorize
    dsimp only
    rw [hmap]
    dsimp only
    rw [show lib.openSnapshot reader.clearHandles (lib.projection.openHandle other) =
      .ok (.meeting other title folder artifact) from hopened]
  cases call with
  | snapshot _ | search _ _ | retentionIdentities | authorizeTrashRestore _
  | retainTranscriptHandle _ | retainOperatorNoteHandle _ | retainAudioPlaybackHandle _ _ =>
    cases hpresents
  | openSearchResult _ | openNote _ _ | openEvidence _ _ | openTranscript _ | openExport _
  | withLockedMeeting _ =>
    cases hpresents
    exact absurd rfl hcapability
  | openOperatorNote _ =>
    cases hpresents
    rw [Library.step, current_eq hcurrent]
    unfold Library.openOperatorNoteCurrent
    rw [show reader.operatorNoteHandles handle = some (lib.projection.openHandle other) from
      hx.trans (congrArg some hhit)]
    dsimp only
    rw [show lib.openSnapshot (reader.removeOperatorNoteHandle handle)
      (lib.projection.openHandle other) = .ok (.meeting other title folder artifact) from hopened]
    dsimp only
    rw [if_neg hactive]
    rfl
  | authorizeAudioPlayback =>
    cases hpresents
    rw [Library.step, current_eq hcurrent]
    unfold Library.authorizeAudioPlayback
    rw [show reader.audioPlaybackHandles handle = some x from hx]
    dsimp only
    rw [show RetainedAudioPlaybackHandle.hit x = lib.projection.openHandle other from hhit,
      show lib.openSnapshot reader.clearNonNoteHandles (lib.projection.openHandle other) =
        .ok (.meeting other title folder artifact) from hopened]
    dsimp only
    unfold Library.playMeeting
    rw [if_neg hactive]
    split
    · rfl
    · rw [hstands.offers.2]
      dsimp only
      rw [if_neg (not_not_intro rfl)]
      split
      · rfl
      · rfl
  | authorizeAudioDeletion _ =>
    cases hpresents
    rw [Library.step, current_eq hcurrent, Library.authorizeAudioDeletion,
      hauthorize _ _ (hx.trans (congrArg some hhit)),
      show lib.audioRetention other = .retained from hstands.offers]
    rfl
  | authorizeTranscriptDeletion _ =>
    cases hpresents
    rw [Library.step, current_eq hcurrent, Library.authorizeTranscriptDeletion,
      hauthorize _ _ (hx.trans (congrArg some hhit))]
    repeat' split
    all_goals rfl
  | authorizeMeetingDeletion _ =>
    cases hpresents
    rw [Library.step, current_eq hcurrent, Library.authorizeMeetingDeletion,
      hauthorize _ _ (hx.trans (congrArg some hhit))]
    rfl
  | authorizeInterruptedTranscription _ =>
    cases hpresents
    rw [Library.step, current_eq hcurrent, Library.authorizeInterruptedTranscription,
      hauthorize _ _ (hx.trans (congrArg some hhit)),
      show lib.interruptedCaptureIsTranscribable other = true from hstands.offers]
    rfl

/-! ## Steps -/

section Steps

variable (huuid : Function.Injective lib.uuid) (hrows : lib.Rows) (hcurrent : lib.isCurrent = true)

include huuid hrows hcurrent

/-- A handle stays acceptable through a call that does not end it, unless that exports a ready
meeting. -/
theorem step_keeps (hsound : lib.Sound reader) {given : Minted} (h : lib.Acceptable reader given)
    {call : Call} (hends : ¬ Ends reader given call) (hquiet : lib.exportsReady reader call = false) :
    lib.Acceptable (lib.step reader call).2 given := by
  have hnavigates : call.navigates = false := by
    cases call with
    | snapshot _ | search _ _ | openSearchResult _ | openNote _ _ => exact absurd (Or.inr trivial) hends
    | _ => rfl
  have hstep := (step_hands huuid hrows hcurrent hsound call hnavigates hquiet).toExtends
  obtain ⟨hit, opened, hfound, hopened, hid⟩ := h
  refine ⟨hit, opened, hstep.table ?_, ?_, hid⟩
  · rw [table_dropped_of_not_ends hends]
    exact hfound
  · refine openSnapshot_mono hstep.hits (openSnapshot_mono (fun hstored => ?_) hopened)
    rw [hits_dropped]
    exact hstored

/-- A handle that is spent is in no map afterwards. -/
theorem table_step_of_spends (hsound : lib.Sound reader) {call : Call} {capability : Capability}
    {handle : String} (hspends : call.spends = some (capability, handle)) {i : Nat}
    (hi : i < reader.minted) (hhandle : handle = lib.uuid i) :
    (lib.step reader call).2.table capability handle = none := by
  have hdropped := dropped_moves hsound call
  have hstep := step_outcome huuid hrows hcurrent hsound call
  cases hfound : (lib.step reader call).2.table capability handle with
  | none => rfl
  | some hit =>
    rw [hhandle] at hfound hspends
    have hold := hstep.draws.old_of_drawn huuid (Nat.lt_of_lt_of_le hi hdropped.draws.drawn) hfound
    exact absurd hold (by
      change (reader.dropped call).table capability (lib.uuid i) ≠ some hit
      rw [table_dropped_of_spends hspends]
      exact fun hnone => by cases hnone)

end Steps

/-- What is known of a handle that was given out, for as long as the reader lives. -/
structure Library.Tracks (lib : Library) (reader : LibraryReader) (given : Minted) : Prop where
  drawn : ∃ i < reader.minted, given.handle = lib.uuid i
  own : ∀ {capability hit}, reader.table capability given.handle = some hit →
    capability = given.capability
  meeting : given.capability ≠ .source → ∀ {hit},
    reader.table given.capability given.handle = some hit →
    hit = lib.projection.openHandle given.meetingId
  source : given.capability = .source → ∀ {hit},
    reader.table given.capability given.handle = some hit →
    ∃ found, reader.hits hit.key = some found ∧ hitMeetingId found = given.meetingId

theorem tracks_of_acceptable (hsound : lib.Sound reader) (h : lib.Acceptable reader given) :
    lib.Tracks reader given := by
  obtain ⟨hit, opened, hfound, hopened, hid⟩ := id h
  refine {
    drawn := hsound.orderly.drawn hfound
    own := fun hother => hsound.orderly.one hother hfound
    meeting := fun hcapability other hother =>
      Option.some.inj (hother.symm.trans (h.table_eq hsound hcapability))
    source := fun _ other hother => ?_ }
  obtain ⟨hit, found, htable, hstored, hmeeting⟩ := exists_stored hfound hopened hid
  obtain rfl := Option.some.inj (hother.symm.trans htable)
  exact ⟨found, hstored, hmeeting⟩

/-- A handle that is tracked is accepted by nothing but its own calls, for its own meeting. -/
theorem Library.Tracks.accepted (hcurrent : lib.isCurrent = true) (hsound : lib.Sound reader)
    {given : Minted} (h : lib.Tracks reader given) {call : Call} {capability : Capability}
    {meetingId : String} (hpresents : call.presents = some (capability, given.handle))
    (haccepted : (lib.step reader call).1.meetingId = some meetingId) :
    capability = given.capability ∧ meetingId = given.meetingId := by
  obtain ⟨hit, found, htable, hstored, hid⟩ := step_accepted hcurrent hpresents haccepted
  obtain rfl := h.own htable
  refine ⟨rfl, ?_⟩
  by_cases hcapability : given.capability = .source
  · obtain ⟨other, hother, hmeeting⟩ := h.source hcapability htable
    obtain rfl := Option.some.inj (hother.symm.trans hstored)
    exact hid.symm.trans hmeeting
  · obtain rfl := h.meeting hcapability htable
    have hkey := hsound.filed.key _ _ hstored
    unfold openHandle at hkey
    rw [storeKey_inj] at hkey
    obtain ⟨authority, rfl, hmeeting⟩ := hitKey_eq_open hkey.symm
    exact hid.symm.trans hmeeting

omit [Unicode] in
/-- Only calls that leave the source handles alone keep one of them. -/
theorem navigates_of_source_kept [Unicode] (lib : Library)
    (h : (reader.dropped call).table .source handle = some hit) :
    call.navigates = false ∧ lib.exportsReady reader call = false := by
  cases call with
  | openEvidence spent _ | openTranscript spent | openExport spent =>
    change (reader.spendSource spent).table .source handle = some hit at h
    unfold spendSource at h
    split at h
    · cases h
    · rw [table_clearHandles] at h
      cases h
  | snapshot _ | search _ _ | openSearchResult _ | openNote _ _ => cases h
  | _ => exact ⟨rfl, rfl⟩

/-- The store after the export of a ready meeting is that of its note. -/
theorem hits_of_exportsReady (hrows : lib.Rows) (hcurrent : lib.isCurrent = true)
    (h : lib.exportsReady reader call = true) : ∃ handle meetingId row, call = .openExport handle ∧
      lib.projection.row? meetingId = some row ∧
      (lib.step reader call).2.hits = (lib.projection.noteClaims reader.hits meetingId).2 := by
  have hexport : ∀ {meetingId row} {later : LibraryReader}, later.hits = reader.hits →
      lib.projection.row? meetingId = some row → row.lifecycle = .ready →
      (lib.exportMeeting meetingId later).2.hits =
        (lib.projection.noteClaims reader.hits meetingId).2 := by
    intro meetingId row later hhits hrow hready
    have hactive : meetingId ∉ lib.activeMeetingIds := by
      rw [active_of_isCurrent hcurrent, ← (row?_eq_some hrow).2]
      exact (hrows row (row?_eq_some hrow).1).included
    unfold Library.exportMeeting Library.exportClaims Library.noteClaims
    rw [if_neg hactive, hrow]
    dsimp only
    rw [if_pos hready, hhits]
    generalize lib.projection.noteClaims reader.hits meetingId = answer
    obtain ⟨result, store⟩ := answer
    cases result with
    | error => rfl
    | ok hits =>
      dsimp only
      generalize lib.readClaims _ hits = readable
      cases readable <;> rfl
  cases call with
  | openExport handle =>
    unfold Library.exportsReady at h
    dsimp only at h
    rw [Library.step, current_eq hcurrent]
    unfold Library.openExportCurrent
    cases hfound : reader.handles handle with
    | none =>
      rw [hfound] at h
      cases h
    | some hit =>
      rw [hfound] at h
      dsimp only at h ⊢
      rw [show lib.openSnapshot (reader.removeSourceHandle handle).clearSourceHandles hit =
        lib.openSnapshot reader hit from rfl]
      have hanswer : ∀ {meetingId}, (lib.projection.row? meetingId).any
          (fun row => row.lifecycle = .ready) = true → ∃ given id row, Call.openExport handle =
            .openExport given ∧ lib.projection.row? id = some row ∧
          (lib.exportMeeting meetingId
              (reader.removeSourceHandle handle).clearSourceHandles).2.hits =
            (lib.projection.noteClaims reader.hits id).2 := by
        intro meetingId hany
        obtain ⟨row, hrow, hready⟩ := (Option.any_eq_true _ _).mp hany
        exact ⟨handle, meetingId, row, rfl, hrow, hexport rfl hrow (of_decide_eq_true hready)⟩
      cases hopened : lib.openSnapshot reader hit with
      | error =>
        rw [hopened] at h
        cases h
      | ok opened =>
        rw [hopened] at h
        cases opened with
        | meeting | transcript => exact hanswer h
        | _ => cases h
  | _ => cases h

section Runs

variable (huuid : Function.Injective lib.uuid) (hrows : lib.Rows) (hcurrent : lib.isCurrent = true)
  {before : List Call} {given : Minted}

include huuid hrows hcurrent

theorem step_tracks (hsound : lib.Sound reader) (h : lib.Tracks reader given) (call : Call) :
    lib.Tracks (lib.step reader call).2 given := by
  have hdropped := dropped_moves hsound call
  have hstep := step_outcome huuid hrows hcurrent hsound call
  obtain ⟨i, hi, hhandle⟩ := h.drawn
  have hkept : ∀ {capability hit}, (lib.step reader call).2.table capability given.handle = some hit →
      (reader.dropped call).table capability given.handle = some hit := by
    intro capability hit hfound
    rw [hhandle] at hfound ⊢
    exact hstep.draws.old_of_drawn huuid (Nat.lt_of_lt_of_le hi hdropped.draws.drawn) hfound
  have hold : ∀ {capability hit}, (lib.step reader call).2.table capability given.handle = some hit →
      reader.table capability given.handle = some hit := by
    intro capability hit hfound
    have hdrop := hkept hfound
    rw [hhandle] at hdrop ⊢
    exact hdropped.draws.old_of_drawn huuid hi hdrop
  refine {
    drawn := ⟨i, Nat.lt_of_lt_of_le hi (hdropped.draws.trans hstep.draws).drawn, hhandle⟩
    own := fun hfound => h.own (hold hfound)
    meeting := fun hcapability _ hfound => h.meeting hcapability (hold hfound)
    source := fun hcapability hit hfound => ?_ }
  obtain ⟨found, hstored, hid⟩ := h.source hcapability (hold hfound)
  have hsource := hkept hfound
  rw [hcapability] at hsource
  obtain ⟨hnavigates, hquiet⟩ := navigates_of_source_kept lib hsource
  refine ⟨found, (step_hands huuid hrows hcurrent hsound call hnavigates hquiet).hits ?_, hid⟩
  rw [hits_dropped]
  exact hstored

omit huuid hrows hcurrent in
theorem run_append (before rest : List Call) : lib.run (before ++ rest) =
    rest.foldl (fun reader call => (lib.step reader call).2) (lib.run before) :=
  List.foldl_append ..

omit huuid hrows hcurrent in
theorem run_concat (calls : List Call) (call : Call) :
    lib.run (calls ++ [call]) = (lib.step (lib.run calls) call).2 :=
  run_append calls [call]

omit [Unicode] huuid hrows hcurrent in
theorem append_cons_concat {α : Type} (before middle : List α) (x next : α) :
    before ++ x :: (middle ++ [next]) = (before ++ x :: middle) ++ [next] := by
  rw [← List.cons_append, List.append_assoc]

theorem sound_run (calls : List Call) : lib.Sound (lib.run calls) := by
  induction calls using List.reverseRecOn with
  | nil => exact sound_new lib
  | append_singleton calls call ih =>
    rw [run_concat]
    exact (step_moves huuid hrows hcurrent ih call).sound

theorem moves_run (before rest : List Call) : lib.Moves (lib.run before) (lib.run (before ++ rest)) := by
  induction rest using List.reverseRecOn with
  | nil =>
    rw [List.append_nil]
    exact .refl (sound_run huuid hrows hcurrent before)
  | append_singleton rest call ih =>
    rw [← List.append_assoc, run_concat]
    exact ih.trans (step_moves huuid hrows hcurrent ih.sound call)

/-- A handle is tracked from the response that returned it on. -/
theorem tracks_run {middle : List Call} {call : Call}
    (hgiven : given ∈ (lib.answer before call).minted) :
    lib.Tracks (lib.run (before ++ call :: middle)) given := by
  induction middle using List.reverseRecOn with
  | nil =>
    have hstep := step_outcome huuid hrows hcurrent (sound_run huuid hrows hcurrent before) call
    rw [run_concat]
    exact tracks_of_acceptable hstep.sound (hstep.acceptable given hgiven)
  | append_singleton middle next ih =>
    rw [append_cons_concat, run_concat]
    exact step_tracks huuid hrows hcurrent (sound_run huuid hrows hcurrent _) ih next

/-- It is acceptable for as long as no call ends it and no ready meeting is exported. -/
theorem acceptable_run {middle : List Call} {call : Call}
    (hgiven : given ∈ (lib.answer before call).minted)
    (hends : ∀ first next last, middle = first ++ next :: last →
      ¬ Ends (lib.run (before ++ call :: first)) given next)
    (hquiet : ∀ first next last, middle = first ++ next :: last →
      lib.exportsReady (lib.run (before ++ call :: first)) next = false) :
    lib.Acceptable (lib.run (before ++ call :: middle)) given := by
  induction middle using List.reverseRecOn with
  | nil =>
    rw [run_concat]
    exact (step_outcome huuid hrows hcurrent (sound_run huuid hrows hcurrent before) call).acceptable
      given hgiven
  | append_singleton middle next ih =>
    have hbefore := ih
      (fun first other last heq => hends first other (last ++ [next]) (by rw [heq]; simp))
      (fun first other last heq => hquiet first other (last ++ [next]) (by rw [heq]; simp))
    rw [append_cons_concat, run_concat]
    exact step_keeps huuid hrows hcurrent (sound_run huuid hrows hcurrent _) hbefore
      (hends middle next [] rfl) (hquiet middle next [] rfl)

/-- A handle that was accepted is in no map of the run any more. -/
theorem table_run_of_accepts {call : Call} {handle : String} (h : lib.Accepts before call handle)
    (middle : List Call) (capability : Capability) :
    (lib.run (before ++ call :: middle)).table capability handle = none := by
  obtain ⟨own, meetingId, hspends, haccepted⟩ := h
  have hsound := sound_run huuid hrows hcurrent before
  have hpresents : call.presents = some (own, handle) := by
    unfold Call.spends at hspends
    split at hspends
    · cases hspends
    · exact hspends
  obtain ⟨hit, -, hheld, -⟩ := step_accepted hcurrent hpresents haccepted
  obtain ⟨i, hi, hhandle⟩ := hsound.orderly.drawn hheld
  have hi : i < (lib.run before).minted := hi
  cases hfound : (lib.run (before ++ call :: middle)).table capability handle with
  | none => rfl
  | some =>
    have hafter := moves_run huuid hrows hcurrent (before ++ [call]) middle
    rw [List.append_assoc, List.singleton_append] at hafter
    have hstep := moves_run huuid hrows hcurrent before [call]
    rw [hhandle] at hfound
    have hspent := hafter.draws.old_of_drawn huuid (Nat.lt_of_lt_of_le hi hstep.draws.drawn) hfound
    have hbefore := hstep.draws.old_of_drawn huuid hi hspent
    rw [← hhandle] at hspent hbefore
    obtain rfl := hsound.orderly.one hbefore hheld
    have hnone := table_step_of_spends huuid hrows hcurrent hsound hspends hi hhandle
    rw [← run_concat] at hnone
    exact absurd (hnone.symm.trans hspent) (fun heq => by cases heq)

/-- The export of a ready meeting leaves no handle for a reviewed action, a playback or a note that
is acceptable. -/
theorem not_acceptable_of_exportsReady (hsound : lib.Sound reader) {call : Call}
    (hready : lib.exportsReady reader call = true) {given : Minted}
    (hcapability : given.capability ≠ .source) : ¬ lib.Acceptable (lib.step reader call).2 given := by
  intro hacceptable
  have hafter := (step_moves huuid hrows hcurrent hsound call).sound
  have htable := hacceptable.table_eq hafter hcapability
  obtain ⟨hit, opened, hfound, hopened, -⟩ := hacceptable
  obtain rfl := Option.some.inj (htable.symm.trans hfound)
  obtain ⟨-, found, hstored, -⟩ := openSnapshot_eq_ok.mp hopened
  have hkey := hafter.filed.key _ _ hstored
  unfold openHandle at hkey
  rw [storeKey_inj] at hkey
  obtain ⟨authority, rfl, -⟩ := hitKey_eq_open hkey.symm
  obtain ⟨handle, meetingId, row, rfl, hrow, hhits⟩ := hits_of_exportsReady hrows hcurrent hready
  rw [hhits] at hstored
  exact (hits_noteClaims hrow hstored).2 authority rfl

/-- Handles keep what they promise in every run that exports no ready meeting, and after such an
export none of the open meeting's other handles is acceptable. -/
theorem handles_integrity (calls : List Call) :
    ((∀ before call rest, calls = before ++ call :: rest →
        lib.exportsReady (lib.run before) call = false) → lib.Integrity calls) ∧
      ∀ before call rest, calls = before ++ call :: rest →
        lib.exportsReady (lib.run before) call = true → ∀ given : Minted,
        given.capability ≠ .source → ¬ lib.Acceptable (lib.run (before ++ [call])) given := by
  refine ⟨fun hquiet => ?_, fun before call rest _ hready given hcapability => ?_⟩
  · refine {
      once := fun before call middle later rest handle _ hfirst hsecond => ?_
      own := fun before call middle later rest given _ hgiven capability meetingId hpresents
          haccepted =>
        (tracks_run huuid hrows hcurrent hgiven).accepted hcurrent
          (sound_run huuid hrows hcurrent _) hpresents haccepted
      kept := fun before call middle rest given hcalls hgiven hends => ?_ }
    · obtain ⟨capability, meetingId, hspends, haccepted⟩ := hsecond
      have hpresents : later.presents = some (capability, handle) := by
        unfold Call.spends at hspends
        split at hspends
        · cases hspends
        · exact hspends
      obtain ⟨hit, -, hheld, -⟩ := step_accepted hcurrent hpresents haccepted
      have hnone := table_run_of_accepts huuid hrows hcurrent hfirst middle capability
      exact absurd (hnone.symm.trans hheld) (fun heq => by cases heq)
    · have hacceptable := acceptable_run huuid hrows hcurrent hgiven hends
        (fun first next last heq => hquiet (before ++ call :: first) next (last ++ rest)
          (by rw [hcalls, heq]; simp))
      exact ⟨hacceptable, fun own hcapability hpresents =>
        step_own hrows hcurrent (sound_run huuid hrows hcurrent _) hacceptable hcapability hpresents⟩
  · rw [run_concat]
    exact not_acceptable_of_exportsReady huuid hrows hcurrent (sound_run huuid hrows hcurrent before)
      hready hcapability

end Runs

end Unicode

/-! ## A ready meeting -/

def readyRow : LibraryRow where
  meetingId := "monday"
  createdAtEpochSeconds := 1700000000
  transcriptSha256 := some "c0ffee"
  lifecycle := .ready
  meetingRecordSha256 := "a1"
  transcriptRelativePath := some "transcripts/c0ffee.json"
  turns := [{ index := 0, visibleIndex := some 0, text := "Ship it", gated := false }]
  noteJsonSha256 := some "b2"
  noteMarkdownSha256 := some "b3"
  claims := [{ ordinal := 0, sha256 := "d4", claimType := .decision, text := "Ship it", locators := [] }]
  savedNoteUnreadable := false
  attemptSha256 := "e5"
  title := none
  folder := none
  folderId := none

def readyProjection : HeldProjection where
  rows := [readyRow]
  quarantinedMeetings := 0
  metadata := .missing
  snapshotId := "snapshot"
  excludedMeetingIds := ∅
  metadataIdentity := "missing"

def readyLibrary : Library where
  projection := readyProjection
  excludedMeetingIds := ∅
  activeMeetingIds := ∅
  rebuilds := fun _ => .ok readyProjection
  meetingLock := fun _ => .none
  audioRetention := fun _ => .retained
  retainedAudioArtifact := fun _ _ => none
  audioVerifies := fun _ _ => true
  operatorNoteUnreadable := fun _ => false
  transcriptDeletionCompleted := fun _ => some false
  queuePending := fun _ => false
  interruptedCaptureIsTranscribable := fun _ => false
  trashed := fun _ => false
  uuid := fun n => String.ofList (List.replicate (n + 1) 'h')

theorem readyLibrary_uuid : Function.Injective readyLibrary.uuid := by
  intro i j h
  have hlists := String.ofList_injective h
  simpa using congrArg List.length hlists

theorem readyLibrary_rows : readyLibrary.Rows := by
  intro row hrow
  obtain rfl := List.mem_singleton.mp hrow
  exact { transcript := rfl, ready := fun _ => rfl, included := Finset.notMem_empty _ }

theorem readyLibrary_isCurrent : readyLibrary.isCurrent = true := by decide


/-- The meeting is listed and opened. -/
def openedCalls : List Call := [.snapshot .default, .openNote (readyLibrary.uuid 0) none]

theorem handles_integrity_opened :
    @Library.Integrity plainUnicode readyLibrary (openedCalls ++ [.openTranscript (readyLibrary.uuid 6)]) := by
  refine (@handles_integrity plainUnicode readyLibrary readyLibrary_uuid readyLibrary_rows
    readyLibrary_isCurrent _).1 fun before call rest hcalls => ?_
  have hmem : call ∈ openedCalls ++ [.openTranscript (readyLibrary.uuid 6)] := by
    rw [hcalls]
    exact List.mem_append_right _ List.mem_cons_self
  simp only [openedCalls, List.cons_append, List.nil_append, List.mem_cons, List.not_mem_nil,
    or_false] at hmem
  rcases hmem with rfl | rfl | rfl
  · rfl
  · rfl
  · rfl

/-- The handle for the deletion of the recording does not survive an export of the meeting. -/
theorem handles_lost_by_export : ¬ ∀ (unicode : Unicode) (lib : Library) (calls : List Call),
    Function.Injective lib.uuid → lib.Rows → lib.isCurrent = true →
    @Library.Integrity unicode lib calls := by
  intro h
  have hready : @Library.exportsReady plainUnicode readyLibrary
      (@Library.run plainUnicode readyLibrary openedCalls)
      (.openExport (readyLibrary.uuid 6)) = true := by decide +kernel
  have hgiven : ⟨.audioDeletion, readyLibrary.uuid 2, "monday"⟩ ∈
      (@Library.answer plainUnicode readyLibrary [.snapshot .default]
        (.openNote (readyLibrary.uuid 0) none)).minted := by decide +kernel
  obtain ⟨-, -, hkept⟩ := h plainUnicode readyLibrary
    (openedCalls ++ [Call.openExport (readyLibrary.uuid 6)]) readyLibrary_uuid readyLibrary_rows
    readyLibrary_isCurrent
  have hacceptable := (hkept [.snapshot .default] (.openNote (readyLibrary.uuid 0) none)
    [.openExport (readyLibrary.uuid 6)] [] _ rfl hgiven (by
      intro first next last heq
      obtain ⟨rfl, rfl⟩ : first = [] ∧ next = Call.openExport (readyLibrary.uuid 6) := by
        cases first with
        | nil =>
          cases heq
          exact ⟨rfl, rfl⟩
        | cons _ _ => simp at heq
      rintro (⟨capability, handle, hspends, hnone⟩ | hsource)
      · -- an export with an unknown handle would not be one of a ready meeting
        cases hspends
        unfold Library.exportsReady at hready
        dsimp only at hready
        have hunknown : (@Library.run plainUnicode readyLibrary openedCalls).handles
            (readyLibrary.uuid 6) = none := Option.map_eq_none_iff.mp hnone
        rw [hunknown] at hready
        cases hready
      · cases hsource)).1
  have hsound := @sound_run plainUnicode readyLibrary readyLibrary_uuid readyLibrary_rows
    readyLibrary_isCurrent openedCalls
  exact @not_acceptable_of_exportsReady plainUnicode readyLibrary _ readyLibrary_uuid
    readyLibrary_rows readyLibrary_isCurrent hsound _ hready
    ⟨.audioDeletion, readyLibrary.uuid 2, "monday"⟩ (fun heq => by cases heq) hacceptable

end LibraryReader

end YawnApp.Desktop
