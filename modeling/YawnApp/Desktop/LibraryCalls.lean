/-
  Desktop/LibraryCalls.lean --- the calls of the reader, one by one.

  Of every call it is shown which handles it drops before anything else, and that
  from there on it leaves the reader sound and returns handles that are accepted.
  The view of a ready meeting is the one that needs care: its note empties the
  store after the handles of the view were minted, and its transcript handle puts
  the meeting's hit back.
-/
import YawnApp.Desktop.LibraryHandles

set_option autoImplicit false

namespace YawnApp.Desktop

open YawnApp.Foundation YawnApp.SessionCore YawnApp.SessionCore.LibraryRead
open MeetingLocks (permits)

namespace LibraryReader

section Unicode

variable [Unicode] {lib : Library} {reader middle later : LibraryReader}

/-- What a call makes of a sound reader: it stays sound, and the handles that are returned are
accepted. -/
structure Library.Outcome (lib : Library) (reader : LibraryReader) (out : Response × LibraryReader) :
    Prop extends lib.Moves reader out.2 where
  acceptable : ∀ given ∈ out.1.minted, lib.Acceptable out.2 given

theorem Library.Hands.outcome {response : Response} {handles : List Minted}
    (h : lib.Hands reader handles later) (hminted : ∀ given ∈ response.minted, given ∈ handles) :
    lib.Outcome reader (response, later) :=
  ⟨h.toMoves, fun given hgiven => h.acceptable given (hminted given hgiven)⟩

/-- A response without handles. -/
theorem Library.Moves.outcome {response : Response} (h : lib.Moves reader later)
    (hminted : response.minted = []) : lib.Outcome reader (response, later) :=
  ⟨h, fun given hgiven => by
    rw [hminted] at hgiven
    exact absurd hgiven List.not_mem_nil⟩

theorem Library.Moves.then {out : Response × LibraryReader} (h : lib.Moves reader middle)
    (hout : lib.Outcome middle out) : lib.Outcome reader out :=
  ⟨h.trans hout.toMoves, hout.acceptable⟩

/-- A handle for a reviewed action is in its map with its own meeting. -/
theorem Library.Acceptable.table_eq (hsound : lib.Sound reader) {given : Minted}
    (h : lib.Acceptable reader given) (hcapability : given.capability ≠ .source) :
    reader.table given.capability given.handle = some (lib.projection.openHandle given.meetingId) := by
  obtain ⟨hit, opened, hfound, hopened, hid⟩ := h
  obtain ⟨x, hx, rfl⟩ := table_eq_some.mp hfound
  obtain ⟨meetingId, hstands⟩ := hsound.stands hcapability hx
  rw [hstands.hit] at hopened hfound
  obtain ⟨_, _, _, rfl⟩ := HeldProjection.opened_of_openHandle hsound.filed hopened
  rw [hfound, ← hid]
  rfl

omit [Unicode] in
theorem mem_handed {capability : Capability} {meetingId : String} {handle : Option String}
    {given : Minted} (h : given ∈ handed capability meetingId handle) :
    given.capability = capability ∧ given.meetingId = meetingId := by
  obtain ⟨_, -, rfl⟩ := List.mem_map.mp h
  exact ⟨rfl, rfl⟩

section Calls

variable (huuid : Function.Injective lib.uuid) (hrows : lib.Rows) (hcurrent : lib.isCurrent = true)
  {hit : LibraryHit}

/-! ## The detail view -/

section Controls

variable (h : lib.Sound reader) (meetingId : String)

include huuid hrows hcurrent h

theorem retainControls_hands : lib.Hands reader (lib.retainControls reader meetingId).1
    (lib.retainControls reader meetingId).2 := by
  unfold Library.retainControls
  extract_lets retained note deletion microphone system transcript meeting
  have hnote : lib.Hands reader (handed .operatorNote meetingId note.1) note.2 := by
    unfold note
    split
    · exact (Library.Extends.refl h).hands
    · exact retainOperatorNoteHandle_hands huuid hrows h meetingId
  have hdeletion := retainAudioDeletionHandle_hands huuid hrows hnote.sound meetingId
    retained fun hretained => eq_of_beq hretained
  have hmicrophone : lib.Hands deletion.2 (handed .audioPlayback meetingId microphone.1)
      microphone.2 := by
    unfold microphone
    split
    · exact retainAudioPlaybackHandle_hands huuid hrows hdeletion.sound meetingId hcurrent .microphone
    · exact (Library.Extends.refl hdeletion.sound).hands
  have hsystem : lib.Hands microphone.2 (handed .audioPlayback meetingId system.1) system.2 := by
    unfold system
    split
    · exact retainAudioPlaybackHandle_hands huuid hrows hmicrophone.sound meetingId hcurrent .system
    · exact (Library.Extends.refl hmicrophone.sound).hands
  have htranscript := retainTranscriptDeletionHandle_hands huuid hrows hsystem.sound meetingId
  have hmeeting := retainMeetingDeletionHandle_hands huuid hrows htranscript.sound meetingId
  exact ((((hnote.append hdeletion).append hmicrophone).append hsystem).append htranscript).append
    hmeeting

omit [Unicode] huuid hrows hcurrent h in
theorem mem_retainControls {given : Minted} (hgiven : given ∈ (lib.retainControls reader meetingId).1) :
    given.capability ≠ .source ∧ given.meetingId = meetingId := by
  unfold Library.retainControls at hgiven
  simp only [List.mem_append] at hgiven
  rcases hgiven with ((((h | h) | h) | h) | h) | h
  all_goals
    obtain ⟨hcapability, hid⟩ := mem_handed h
    rw [hcapability]
    exact ⟨by decide, hid⟩

end Controls

section Views

variable (h : lib.Sound reader) (meetingId : String)

include huuid h

/-- The claims of a note open for the meeting of the note. -/
theorem retainNoteClaims_hands (hits : List LibraryHit)
    (hstore : ∀ {key hit}, reader.hits key = some hit → hitMeetingId hit = meetingId) :
    lib.Extends reader (lib.retainNoteClaims meetingId hits reader).2 ∧
      ∀ claims, (lib.retainNoteClaims meetingId hits reader).1 = some claims →
        lib.Hands reader claims (lib.retainNoteClaims meetingId hits reader).2 := by
  induction hits generalizing reader with
  | nil =>
    refine ⟨.refl h, fun claims hclaims => ?_⟩
    cases hclaims
    exact (Library.Extends.refl h).hands
  | cons hit rest ih =>
    obtain ⟨hmint, htable⟩ := h.mint huuid .source hit
      (fun hne => absurd rfl hne)
    unfold Library.retainNoteClaims
    dsimp only
    split
    · rename_i meetingId' _ _ _ _ _ _ _ _ hopened
      have hhits : (lib.retainHandle reader hit).2.hits = reader.hits := hits_insert _ _ _ _
      have hminted : ∀ {key found}, (lib.retainHandle reader hit).2.hits key = some found →
          hitMeetingId found = meetingId := by
        rw [hhits]
        exact hstore
      obtain ⟨hextends, hlater⟩ := ih hmint.sound hminted
      refine ⟨hmint.trans hextends, fun claims hclaims => ?_⟩
      obtain ⟨later, hsome, rfl⟩ := Option.map_eq_some_iff.mp hclaims
      have hfirst : lib.Hands reader [⟨.source, (lib.retainHandle reader hit).1, meetingId⟩]
          (lib.retainHandle reader hit).2 := by
        refine ⟨hmint, fun given hgiven => ?_⟩
        obtain rfl := List.mem_singleton.mp hgiven
        refine ⟨hit, _, htable, hopened, ?_⟩
        obtain ⟨-, found, hfound, hsealed⟩ := HeldProjection.openSnapshot_eq_ok.mp hopened
        rw [hhits] at hfound
        exact (HeldProjection.openSealed_meetingId hsealed).trans (hstore hfound)
      exact hfirst.append (hlater later hsome)
    · exact ⟨hmint, fun claims hclaims => by cases hclaims⟩

include hrows

/-- A view whose handles are accepted already. -/
theorem transcriptView_outcome (state : String) {controls : List Minted}
    (hcontrols : ∀ given ∈ controls, lib.Acceptable reader given) :
    lib.Outcome reader (lib.transcriptView state controls meetingId reader) := by
  have htranscript := retainTranscriptHandle_hands huuid hrows h meetingId
  refine ⟨htranscript.toMoves, fun given hgiven => ?_⟩
  rcases List.mem_append.mp hgiven with hgiven | hgiven
  · exact htranscript.acceptable given hgiven
  · exact (hcontrols given hgiven).extends htranscript.toExtends

/-- The view of a note: the handles that were minted before it are accepted after it. -/
theorem noteView_outcome {row : LibraryRow} (hrow : lib.projection.row? meetingId = some row)
    (hready : row.lifecycle = .ready) {controls : List Minted}
    (hcontrols : ∀ given ∈ controls, lib.Acceptable reader given ∧
      given.capability ≠ .source ∧ given.meetingId = meetingId) :
    lib.Outcome reader (lib.noteView controls meetingId reader) := by
  have hnote : lib.Moves reader (lib.noteClaims reader meetingId).2 :=
    h.refill (h.filed.noteClaims meetingId)
  have htable : (lib.noteClaims reader meetingId).2.table = reader.table := rfl
  have hstore : ∀ {key hit}, (lib.noteClaims reader meetingId).2.hits key = some hit →
      hitMeetingId hit = meetingId := fun hfound => (HeldProjection.hits_noteClaims hrow hfound).1
  unfold Library.noteView
  generalize lib.noteClaims reader meetingId = answer at hnote htable hstore
  obtain ⟨result, noted⟩ := answer
  cases result with
  | error => exact hnote.outcome rfl
  | ok hits =>
    dsimp only at hnote htable hstore ⊢
    obtain ⟨hextends, hhands⟩ := retainNoteClaims_hands huuid hnote.sound meetingId
      hits hstore
    generalize lib.retainNoteClaims meetingId hits noted = answer at hextends hhands
    obtain ⟨result, claimed⟩ := answer
    cases result with
    | none => exact (hnote.trans hextends.toMoves).outcome rfl
    | some claims =>
      dsimp only at hextends hhands ⊢
      have htranscript := retainTranscriptHandle_hands huuid hrows hextends.sound meetingId
      refine ⟨(hnote.trans hextends.toMoves).trans htranscript.toMoves, fun given hgiven => ?_⟩
      rcases List.mem_append.mp hgiven with hgiven | hgiven
      · exact htranscript.acceptable given hgiven
      rcases List.mem_append.mp hgiven with hgiven | hgiven
      · -- the transcript handle has put the meeting's hit back
        obtain ⟨hacceptable, hcapability, hid⟩ := hcontrols given hgiven
        have hsound := hrows row (HeldProjection.row?_eq_some hrow).1
        have hoffered : lib.meetingHasTranscript meetingId = true := by
          unfold Library.meetingHasTranscript
          rw [List.any_eq_true]
          refine ⟨row, (HeldProjection.row?_eq_some hrow).1, ?_⟩
          rw [(HeldProjection.row?_eq_some hrow).2, beq_self_eq_true, Bool.true_and]
          exact hsound.ready hready
        have hrow' : lib.projection.row? given.meetingId = some row := hid ▸ hrow
        refine acceptable_of_stored hrows hrow' (htranscript.table (hextends.table ?_)) ?_
        · rw [htable]
          exact hacceptable.table_eq h hcapability
        · unfold Library.transcriptView Library.retainTranscriptHandle
          rw [hoffered, hid]
          exact hits_retainFor _ hrow
      · exact ((hhands claims rfl).acceptable given hgiven).extends htranscript.toExtends

include hcurrent

/-- The view of a meeting that may be read. -/
theorem meetingView_outcome : lib.Outcome reader (lib.meetingView meetingId reader) := by
  unfold Library.meetingView
  cases hrow : lib.projection.row? meetingId with
  | none => exact (Library.Moves.refl h).outcome rfl
  | some =>
    have hcontrols := retainControls_hands huuid hrows hcurrent h meetingId
    have htranscript : ∀ state, lib.Outcome reader (lib.transcriptView state
        (lib.retainControls reader meetingId).1 meetingId (lib.retainControls reader meetingId).2) :=
      fun state => hcontrols.toMoves.then
        (transcriptView_outcome huuid hrows hcontrols.sound meetingId state hcontrols.acceptable)
    dsimp only
    split
    · exact htranscript _
    · have hinterrupted :=
        retainInterruptedTranscriptionHandle_hands huuid hrows hcontrols.sound meetingId
      exact (hcontrols.append hinterrupted).outcome fun _ hgiven => hgiven
    · rename_i hready
      split
      · exact htranscript _
      · exact hcontrols.toMoves.then (noteView_outcome huuid hrows hcontrols.sound meetingId
          hrow hready fun given hgiven =>
            ⟨hcontrols.acceptable given hgiven, mem_retainControls meetingId hgiven⟩)
    · split
      · exact hcontrols.outcome fun _ hgiven => hgiven
      · exact htranscript _

end Views

/-! ## Snapshots and searches -/

/-- A handle for a hit that opens. -/
theorem retainHandle_hands (huuid : Function.Injective lib.uuid) (h : lib.Sound reader)
    {opened : OpenedLibraryHit} (hopened : lib.openSnapshot reader hit = .ok opened) :
    lib.Hands reader [⟨.source, (lib.retainHandle reader hit).1, opened.meetingId⟩]
      (lib.retainHandle reader hit).2 := by
  obtain ⟨hmint, htable⟩ := h.mint huuid .source hit
    (fun hne => absurd rfl hne)
  refine ⟨hmint, fun given hgiven => ?_⟩
  obtain rfl := List.mem_singleton.mp hgiven
  exact ⟨hit, opened, htable, openSnapshot_mono hmint.hits hopened, rfl⟩

section Lists

include huuid

theorem retainResults_hands (hits : List LibraryHit) (h : lib.Sound reader) :
    lib.Extends reader (lib.retainResults hits reader).2 ∧
      ∀ handles, (lib.retainResults hits reader).1 = some handles →
        lib.Hands reader handles (lib.retainResults hits reader).2 := by
  induction hits generalizing reader with
  | nil =>
    refine ⟨.refl h, fun handles hhandles => ?_⟩
    cases hhandles
    exact (Library.Extends.refl h).hands
  | cons hit rest ih =>
    unfold Library.retainResults
    cases hopened : lib.openSnapshot reader hit with
    | error => exact ⟨.refl h, fun handles hhandles => by cases hhandles⟩
    | ok =>
      have hfirst := retainHandle_hands huuid h hopened
      obtain ⟨hextends, hlater⟩ := ih hfirst.sound
      refine ⟨hfirst.toExtends.trans hextends, fun handles hhandles => ?_⟩
      obtain ⟨later, hsome, rfl⟩ := Option.map_eq_some_iff.mp hhandles
      exact hfirst.append (hlater later hsome)

include hrows

theorem retainRows_hands (rows : List LibraryRow) (h : lib.Sound reader) :
    lib.Extends reader (lib.retainRows rows reader).2 ∧
      ∀ handles, (lib.retainRows rows reader).1 = some handles →
        lib.Hands reader handles (lib.retainRows rows reader).2 := by
  induction rows generalizing reader with
  | nil =>
    refine ⟨.refl h, fun handles hhandles => ?_⟩
    cases hhandles
    exact (Library.Extends.refl h).hands
  | cons row rest ih =>
    unfold Library.retainRows
    cases hrow : lib.projection.row? row.meetingId with
    | none =>
      rw [meetingHandle_of_none hrow]
      exact ⟨.refl h, fun handles hhandles => by cases hhandles⟩
    | some found =>
      have hopen := h.retain_open hrow
      rw [meetingHandle_of_row hrow]
      obtain ⟨artifact, -, hopened⟩ := HeldProjection.openSnapshot_open hrow
        (hrows found (HeldProjection.row?_eq_some hrow).1) (hits_retain_open hrow reader.hits)
      have hfirst := retainHandle_hands huuid hopen.sound hopened
      obtain ⟨hextends, hlater⟩ := ih hfirst.sound
      refine ⟨(hopen.trans hfirst.toExtends).trans hextends, fun handles hhandles => ?_⟩
      obtain ⟨later, hsome, rfl⟩ := Option.map_eq_some_iff.mp hhandles
      exact hopen.hands.append (hfirst.append (hlater later hsome))

end Lists

theorem readPreviews_moves (rows : List LibraryRow) (h : lib.Sound reader) :
    lib.Moves reader (rows.foldl lib.readPreview reader) := by
  induction rows generalizing reader with
  | nil => exact .refl h
  | cons row rest ih =>
    have hfirst : lib.Moves reader (lib.readPreview reader row) := by
      unfold Library.readPreview
      split
      · exact .refl h
      · exact h.refill (h.filed.noteClaims row.meetingId)
    exact hfirst.trans (ih hfirst.sound)

section Reading

variable (h : lib.Sound reader)

include huuid h

theorem searchCurrent_outcome (query : String) (filter : LibraryFilter) :
    lib.Outcome reader.clearHandles (lib.searchCurrent query filter reader) := by
  have hcleared := h.clearHandles.sound
  have hsearch := hcleared.refill
    (hcleared.filed.searchFilteredExcluding query filter lib.isLocked)
  unfold Library.searchCurrent
  dsimp only
  split
  · exact hsearch.outcome rfl
  · exact hsearch.outcome rfl
  · split
    · exact hsearch.outcome rfl
    · rename_i found _ _
      obtain ⟨hextends, hhands⟩ := retainResults_hands huuid found.hits hsearch.sound
      split
      · rename_i heq
        rw [heq] at hextends
        exact (hsearch.trans hextends.toMoves).outcome rfl
      · rename_i heq
        rw [heq] at hhands
        exact hsearch.then ((hhands _ rfl).outcome fun _ hgiven => hgiven)

/-- A search hit is handed on under a handle of its own. -/
theorem retainSearchOpen_outcome {hit : LibraryHit} {opened : OpenedLibraryHit}
    (hopened : lib.openSnapshot reader.clearHandles hit = .ok opened) (state : String) :
    lib.Outcome reader.clearHandles (lib.retainSearchOpen hit state opened.meetingId reader) :=
  (retainHandle_hands huuid h.clearHandles.sound hopened).outcome fun _ hgiven => hgiven

theorem openSearchResultCurrent_outcome (handle : String) :
    lib.Outcome reader.clearHandles (lib.openSearchResultCurrent handle reader) := by
  have hcleared := h.clearHandles.sound
  have hrefused : ∀ response : Response, response.minted = [] →
      lib.Outcome reader.clearHandles (response, reader.clearHandles) :=
    fun response hminted => (Library.Moves.refl hcleared).outcome hminted
  unfold Library.openSearchResultCurrent
  split
  · exact hrefused _ rfl
  · dsimp only
    split
    · rename_i hopened
      split
      · exact hrefused _ rfl
      · exact retainSearchOpen_outcome huuid hcleared hopened _
    · rename_i hopened
      split
      · exact hrefused _ rfl
      · split
        · exact retainSearchOpen_outcome huuid hcleared hopened _
        · exact hrefused _ rfl
    · rename_i hopened
      split
      · exact hrefused _ rfl
      · exact retainSearchOpen_outcome huuid hcleared hopened _
    · exact hrefused _ rfl
    · exact hrefused _ rfl

include hrows

theorem snapshotCurrent_outcome (filter : LibraryFilter) :
    lib.Outcome reader.clearHandles (lib.snapshotCurrent filter reader) := by
  have hcleared := h.clearHandles.sound
  unfold Library.snapshotCurrent
  dsimp only
  split
  · exact (Library.Moves.refl hcleared).outcome rfl
  · have hpreviews := readPreviews_moves (lib.projection.filteredRows filter) hcleared
    obtain ⟨hextends, hhands⟩ := retainRows_hands huuid hrows
      (lib.projection.filteredRows filter) hpreviews.sound
    split
    · rename_i heq
      rw [heq] at hextends
      exact (hpreviews.trans hextends.toMoves).outcome rfl
    · rename_i heq
      rw [heq] at hhands
      exact hpreviews.then ((hhands _ rfl).outcome fun _ hgiven => hgiven)

include hcurrent

theorem openNoteCurrent_outcome (handle : String) (unlockedMeetingId : Option String) :
    lib.Outcome reader.clearHandles (lib.openNoteCurrent handle unlockedMeetingId reader) := by
  have hcleared := h.clearHandles.sound
  unfold Library.openNoteCurrent
  split
  · exact (Library.Moves.refl hcleared).outcome rfl
  · dsimp only
    split
    · rename_i meetingId _ _ _ _
      split
      · exact meetingView_outcome huuid hrows hcurrent hcleared meetingId
      · exact (retainMeetingDeletionHandle_hands huuid hrows hcleared meetingId).outcome
          fun _ hgiven => hgiven
    · exact (Library.Moves.refl hcleared).outcome rfl

end Reading

/-! ## Sources -/

section Sources

variable (h : lib.Sound reader)

include h

omit [Unicode] in
theorem clearSourceHandles_moves : lib.Moves reader reader.clearSourceHandles :=
  h.drop rfl rfl fun {capability} _ _ hfound => by
    by_cases hcapability : capability = .source
    · subst hcapability
      cases hfound
    · rw [held_clearSourceHandles reader hcapability] at hfound
      exact hfound

omit [Unicode] in
theorem removeOperatorNoteHandle_moves (handle : String) :
    lib.Moves reader (reader.removeOperatorNoteHandle handle) :=
  h.drop rfl rfl fun {capability} other _ hfound => by
    by_cases hcapability : capability = .operatorNote
    · subst hcapability
      by_cases hother : other = handle
      · rw [hother] at hfound
        cases hfound.symm.trans (Function.update_self ..)
      · exact (Function.update_of_ne hother ..).symm.trans hfound
    · rw [held_removeOperatorNoteHandle reader handle hcapability] at hfound
      exact hfound

end Sources

/-- The source handles are spent together, all handles by one that is unknown. -/
def spendSource (reader : LibraryReader) (handle : String) : LibraryReader :=
  if (reader.handles handle).isSome then reader.clearSourceHandles else reader.clearHandles

def spendOperatorNote (reader : LibraryReader) (handle : String) : LibraryReader :=
  if (reader.operatorNoteHandles handle).isSome then reader.removeOperatorNoteHandle handle
  else reader.clearHandles

variable {handle : String}

section

omit [Unicode]

theorem spendSource_of_some (h : reader.handles handle = some hit) :
    reader.spendSource handle = reader.clearSourceHandles := by
  unfold spendSource
  rw [h]
  rfl

theorem spendSource_of_none (h : reader.handles handle = none) :
    reader.spendSource handle = reader.clearHandles := by
  unfold spendSource
  rw [h]
  rfl

theorem spendOperatorNote_of_some (h : reader.operatorNoteHandles handle = some hit) :
    reader.spendOperatorNote handle = reader.removeOperatorNoteHandle handle := by
  unfold spendOperatorNote
  rw [h]
  rfl

theorem spendOperatorNote_of_none (h : reader.operatorNoteHandles handle = none) :
    reader.spendOperatorNote handle = reader.clearHandles := by
  unfold spendOperatorNote
  rw [h]
  rfl

end

/-- The reader once a call has dropped its handles. -/
def dropped (reader : LibraryReader) : Call → LibraryReader
  | .openEvidence handle _ | .openTranscript handle | .openExport handle => reader.spendSource handle
  | .openOperatorNote handle => reader.spendOperatorNote handle
  | .authorizeAudioPlayback _ _ => reader.clearNonNoteHandles
  | .withLockedMeeting _ | .retentionIdentities | .authorizeTrashRestore _
  | .retainTranscriptHandle _ | .retainOperatorNoteHandle _ | .retainAudioPlaybackHandle _ _ => reader
  | .snapshot _ | .search _ _ | .openSearchResult _ | .openNote _ _ | .authorizeAudioDeletion _
  | .authorizeTranscriptDeletion _ | .authorizeMeetingDeletion _
  | .authorizeInterruptedTranscription _ => reader.clearHandles

section Dropped

variable (h : lib.Sound reader)

include h

section

omit [Unicode]

theorem spendSource_moves (handle : String) : lib.Moves reader (reader.spendSource handle) := by
  unfold spendSource
  split
  · exact clearSourceHandles_moves h
  · exact h.clearHandles

theorem spendOperatorNote_moves (handle : String) :
    lib.Moves reader (reader.spendOperatorNote handle) := by
  unfold spendOperatorNote
  split
  · exact removeOperatorNoteHandle_moves h handle
  · exact h.clearHandles

theorem dropped_moves (call : Call) : lib.Moves reader (reader.dropped call) := by
  cases call with
  | openEvidence handle _ | openTranscript handle | openExport handle =>
    exact spendSource_moves h handle
  | openOperatorNote handle => exact spendOperatorNote_moves h handle
  | authorizeAudioPlayback _ _ => exact h.clearNonNoteHandles
  | withLockedMeeting _ | retentionIdentities | authorizeTrashRestore _ | retainTranscriptHandle _
  | retainOperatorNoteHandle _ | retainAudioPlaybackHandle _ _ => exact .refl h
  | snapshot _ | search _ _ | openSearchResult _ | openNote _ _ | authorizeAudioDeletion _
  | authorizeTranscriptDeletion _ | authorizeMeetingDeletion _
  | authorizeInterruptedTranscription _ => exact h.clearHandles

end

omit [Unicode] h in
/-- What `current` calls answers for a library that has not changed. -/
theorem current_eq (hcurrent : lib.isCurrent = true) (stale : Response)
    (call : LibraryReader → Response × LibraryReader) : lib.current reader stale call = call reader := by
  unfold Library.current Library.revalidate
  rw [if_pos hcurrent]

end Dropped

section Spending

variable (h : lib.Sound reader) (handle : String)

include h

theorem authorize_hands (map : LibraryReader → HandleMap LibraryHit) {answer : String → Response}
    (hanswer : ∀ meetingId, (answer meetingId).minted = []) :
    lib.Hands reader.clearHandles (lib.authorize map answer handle reader).1.minted
      (lib.authorize map answer handle reader).2 := by
  have hcleared : lib.Extends reader.clearHandles reader.clearHandles := .refl h.clearHandles.sound
  unfold Library.authorize
  dsimp only
  split
  · exact hcleared.hands
  · split
    · rw [hanswer]
      exact hcleared.hands
    · exact hcleared.hands

theorem authorizeAudioPlayback_hands (unlockedMeetingId : Option String) :
    lib.Hands reader.clearNonNoteHandles
      (lib.authorizeAudioPlayback unlockedMeetingId handle reader).1.minted
      (lib.authorizeAudioPlayback unlockedMeetingId handle reader).2 := by
  have hcleared : lib.Extends reader.clearNonNoteHandles reader.clearNonNoteHandles :=
    .refl h.clearNonNoteHandles.sound
  have hplay : ∀ playback meetingId,
      (lib.playMeeting playback unlockedMeetingId meetingId).minted = [] := by
    intro playback meetingId
    unfold Library.playMeeting
    repeat' split
    all_goals rfl
  unfold Library.authorizeAudioPlayback
  dsimp only
  split
  · exact hcleared.hands
  · split
    · rw [hplay]
      exact hcleared.hands
    · exact hcleared.hands

theorem openTranscriptCurrent_hands : lib.Hands (reader.spendSource handle)
    (lib.openTranscriptCurrent handle reader).1.minted
    (lib.openTranscriptCurrent handle reader).2 := by
  have hspent : lib.Extends (reader.spendSource handle) (reader.spendSource handle) :=
    .refl (spendSource_moves h handle).sound
  unfold Library.openTranscriptCurrent
  cases hfound : reader.handles handle with
  | none =>
    rw [spendSource_of_none hfound] at hspent ⊢
    exact hspent.hands
  | some =>
    rw [spendSource_of_some hfound] at hspent ⊢
    dsimp only
    repeat' split
    all_goals exact hspent.hands

theorem openOperatorNoteCurrent_hands : lib.Hands (reader.spendOperatorNote handle)
    (lib.openOperatorNoteCurrent handle reader).1.minted
    (lib.openOperatorNoteCurrent handle reader).2 := by
  have hspent : lib.Extends (reader.spendOperatorNote handle) (reader.spendOperatorNote handle) :=
    .refl (spendOperatorNote_moves h handle).sound
  unfold Library.openOperatorNoteCurrent
  cases hfound : reader.operatorNoteHandles handle with
  | none =>
    rw [spendOperatorNote_of_none hfound] at hspent ⊢
    exact hspent.hands
  | some =>
    rw [spendOperatorNote_of_some hfound] at hspent ⊢
    dsimp only
    repeat' split
    all_goals exact hspent.hands

/-- Where an export stands for a ready meeting, it empties the store for the claims. -/
theorem exportMeeting_hands (meetingId : String) :
    lib.Outcome reader (lib.exportMeeting meetingId reader) ∧
      ((∀ row, lib.projection.row? meetingId = some row → row.lifecycle ≠ .ready) →
        lib.Hands reader (lib.exportMeeting meetingId reader).1.minted
          (lib.exportMeeting meetingId reader).2) := by
  have hkept : lib.Extends reader reader := .refl h
  have hnote : lib.Moves reader (lib.noteClaims reader meetingId).2 :=
    h.refill (h.filed.noteClaims meetingId)
  unfold Library.exportMeeting Library.exportClaims
  split
  · exact ⟨hkept.toMoves.outcome rfl, fun _ => hkept.hands⟩
  · cases hrow : lib.projection.row? meetingId with
    | none => exact ⟨hkept.toMoves.outcome rfl, fun _ => hkept.hands⟩
    | some row =>
      dsimp only
      by_cases hready : row.lifecycle = .ready
      · rw [if_pos hready]
        refine ⟨?_, fun hquiet => absurd hready (hquiet row rfl)⟩
        generalize lib.noteClaims reader meetingId = answer at hnote
        obtain ⟨result, noted⟩ := answer
        cases result with
        | error => exact hnote.outcome rfl
        | ok hits =>
          dsimp only
          cases lib.readClaims noted hits
          · exact hnote.outcome rfl
          · exact hnote.outcome rfl
      · rw [if_neg hready]
        exact ⟨hkept.toMoves.outcome rfl, fun _ => hkept.hands⟩

include huuid hrows

theorem openEvidenceCurrent_hands (locatorOrdinal : Nat) : lib.Hands (reader.spendSource handle)
    (lib.openEvidenceCurrent handle locatorOrdinal reader).1.minted
    (lib.openEvidenceCurrent handle locatorOrdinal reader).2 := by
  have hspent : lib.Extends (reader.spendSource handle) (reader.spendSource handle) :=
    .refl (spendSource_moves h handle).sound
  unfold Library.openEvidenceCurrent
  cases hfound : reader.handles handle with
  | none =>
    rw [spendSource_of_none hfound] at hspent ⊢
    exact hspent.hands
  | some =>
    rw [spendSource_of_some hfound] at hspent ⊢
    dsimp only
    split
    · exact hspent.hands
    · exact retainTranscriptHandle_hands huuid hrows hspent.sound _

end Spending

/-! ## Exports -/

/-- Whether a call is the export of a meeting that is ready. -/
def Library.exportsReady (lib : Library) (reader : LibraryReader) : Call → Bool
  | .openExport handle =>
    match reader.handles handle with
    | none => false
    | some hit =>
      match lib.openSnapshot reader hit with
      | .ok (.meeting meetingId ..) | .ok (.transcript meetingId ..) =>
        (lib.projection.row? meetingId).any fun row => row.lifecycle = .ready
      | _ => false
  | _ => false

section Exporting

variable (h : lib.Sound reader) (handle : String)

include h

theorem openExportCurrent_hands :
    lib.Outcome (reader.spendSource handle) (lib.openExportCurrent handle reader) ∧
      (lib.exportsReady reader (.openExport handle) = false →
        lib.Hands (reader.spendSource handle) (lib.openExportCurrent handle reader).1.minted
          (lib.openExportCurrent handle reader).2) := by
  have hspent : lib.Extends (reader.spendSource handle) (reader.spendSource handle) :=
    .refl (spendSource_moves h handle).sound
  unfold Library.openExportCurrent
  cases hfound : reader.handles handle with
  | none =>
    rw [spendSource_of_none hfound] at hspent ⊢
    exact ⟨hspent.toMoves.outcome rfl, fun _ => hspent.hands⟩
  | some hit =>
    rw [spendSource_of_some hfound] at hspent ⊢
    have hopened : lib.openSnapshot (reader.removeSourceHandle handle).clearSourceHandles hit =
        lib.openSnapshot reader hit := rfl
    have hquiet : ∀ meetingId, lib.exportsReady reader (.openExport handle) =
        ((lib.projection.row? meetingId).any fun row => decide (row.lifecycle = .ready)) →
        lib.exportsReady reader (.openExport handle) = false →
        ∀ row, lib.projection.row? meetingId = some row → row.lifecycle ≠ .ready := by
      intro meetingId heq hnone row hrow
      rw [heq, hrow] at hnone
      exact of_decide_eq_false hnone
    dsimp only
    rw [hopened]
    split
    · rename_i meetingId _ _ _ heq
      refine ⟨(exportMeeting_hands hspent.sound _).1, fun hnone =>
        (exportMeeting_hands hspent.sound _).2 (hquiet meetingId ?_ hnone)⟩
      unfold Library.exportsReady
      dsimp only
      rw [hfound]
      dsimp only
      rw [heq]
    · rename_i meetingId _ _ _ _ _ heq
      refine ⟨(exportMeeting_hands hspent.sound _).1, fun hnone =>
        (exportMeeting_hands hspent.sound _).2 (hquiet meetingId ?_ hnone)⟩
      unfold Library.exportsReady
      dsimp only
      rw [hfound]
      dsimp only
      rw [heq]
    · exact ⟨hspent.toMoves.outcome rfl, fun _ => hspent.hands⟩

end Exporting

/-! ## Steps -/

/-- The calls that begin a new view. -/
def Call.navigates : Call → Bool
  | .snapshot _ | .search _ _ | .openSearchResult _ | .openNote _ _ => true
  | _ => false

section Steps

variable (h : lib.Sound reader) (call : Call)

include huuid hrows hcurrent h

/-- What a step does after its handles are dropped, unless it begins a new view or exports a
ready meeting: handles are added, and hits. -/
theorem step_hands (hnavigates : call.navigates = false)
    (hquiet : lib.exportsReady reader call = false) :
    lib.Hands (reader.dropped call) (lib.step reader call).1.minted (lib.step reader call).2 := by
  have hkept : lib.Extends reader reader := .refl h
  cases call with
  | snapshot _ | search _ _ | openSearchResult _ | openNote _ _ => cases hnavigates
  | openEvidence handle locatorOrdinal =>
    rw [Library.step, current_eq hcurrent]
    exact openEvidenceCurrent_hands huuid hrows h handle locatorOrdinal
  | openTranscript handle =>
    rw [Library.step, current_eq hcurrent]
    exact openTranscriptCurrent_hands h handle
  | openOperatorNote handle =>
    rw [Library.step, current_eq hcurrent]
    exact openOperatorNoteCurrent_hands h handle
  | openExport handle =>
    rw [Library.step, current_eq hcurrent]
    exact (openExportCurrent_hands h handle).2 hquiet
  | authorizeAudioPlayback handle unlockedMeetingId =>
    rw [Library.step, current_eq hcurrent]
    exact authorizeAudioPlayback_hands h handle unlockedMeetingId
  | authorizeAudioDeletion handle =>
    rw [Library.step, current_eq hcurrent]
    apply authorize_hands h handle _
    intro meetingId
    cases lib.audioRetention meetingId <;> rfl
  | authorizeTranscriptDeletion handle =>
    rw [Library.step, current_eq hcurrent]
    apply authorize_hands h handle _
    intro meetingId
    repeat' split
    all_goals rfl
  | authorizeMeetingDeletion handle =>
    rw [Library.step, current_eq hcurrent]
    exact authorize_hands h handle _ fun _ => rfl
  | authorizeInterruptedTranscription handle =>
    rw [Library.step, current_eq hcurrent]
    apply authorize_hands h handle _
    intro meetingId
    split <;> rfl
  | withLockedMeeting =>
    rw [Library.step]
    unfold Library.withLockedMeeting
    repeat' split
    all_goals exact hkept.hands
  | retentionIdentities =>
    rw [Library.step, current_eq hcurrent]
    exact hkept.hands
  | authorizeTrashRestore => exact hkept.hands
  | retainTranscriptHandle meetingId => exact retainTranscriptHandle_hands huuid hrows h meetingId
  | retainOperatorNoteHandle meetingId =>
    exact retainOperatorNoteHandle_hands huuid hrows h meetingId
  | retainAudioPlaybackHandle meetingId source =>
    exact retainAudioPlaybackHandle_hands huuid hrows h meetingId hcurrent source

/-- After its handles are dropped a step leaves the reader sound, and it returns handles that are
accepted. -/
theorem step_outcome : lib.Outcome (reader.dropped call) (lib.step reader call) := by
  by_cases hnavigates : call.navigates = true
  · cases call with
    | snapshot filter =>
      rw [Library.step, current_eq hcurrent]
      exact snapshotCurrent_outcome huuid hrows h filter
    | search query filter =>
      rw [Library.step, current_eq hcurrent]
      exact searchCurrent_outcome huuid h query filter
    | openSearchResult handle =>
      rw [Library.step, current_eq hcurrent]
      exact openSearchResultCurrent_outcome huuid h handle
    | openNote handle unlockedMeetingId =>
      rw [Library.step, current_eq hcurrent]
      exact openNoteCurrent_outcome huuid hrows hcurrent h handle unlockedMeetingId
    | _ => cases hnavigates
  · by_cases hquiet : lib.exportsReady reader call = false
    · exact (step_hands huuid hrows hcurrent h call (Bool.not_eq_true _ ▸ hnavigates) hquiet).outcome
        fun _ hgiven => hgiven
    · cases call with
      | openExport handle =>
        rw [Library.step, current_eq hcurrent]
        exact (openExportCurrent_hands h handle).1
      | _ => exact absurd rfl hquiet

theorem step_moves : lib.Moves reader (lib.step reader call).2 :=
  (dropped_moves h call).trans (step_outcome huuid hrows hcurrent h call).toMoves

end Steps

end Calls

end Unicode

end LibraryReader

end YawnApp.Desktop
