/-
  Desktop/LibraryHandles.lean --- what a call does to the handles of the reader.

  Every call drops some handles first and draws new ones then.  A handle of one
  of the maps for reviewed actions stands for a meeting that is listed, but its
  hit may have left the store; what keeps a handle alive is that nobody drops
  it and nobody empties the store.
-/
import YawnApp.Desktop.LibraryReader

set_option autoImplicit false

namespace YawnApp.Desktop

open YawnApp.Foundation YawnApp.SessionCore YawnApp.SessionCore.LibraryRead

namespace LibraryReader

/-! ## Maps -/

@[simp] theorem held_insert_self (reader : LibraryReader) (handle : String) (capability : Capability)
    (x : capability.Held) : (reader.insert handle capability x).held capability =
      Function.update (reader.held capability) handle (some x) := by
  cases capability <;> rfl

variable {capability : Capability}

theorem held_insert_of_ne (reader : LibraryReader) (handle : String) {other : Capability}
    (x : capability.Held) (h : other ≠ capability) :
    (reader.insert handle capability x).held other = reader.held other := by
  cases capability <;> cases other <;> first | rfl | exact absurd rfl h

@[simp] theorem hits_insert (reader : LibraryReader) (handle : String) (capability : Capability)
    (x : capability.Held) : (reader.insert handle capability x).hits = reader.hits := by
  cases capability <;> rfl

@[simp] theorem minted_insert (reader : LibraryReader) (handle : String) (capability : Capability)
    (x : capability.Held) : (reader.insert handle capability x).minted = reader.minted + 1 := by
  cases capability <;> rfl

@[simp] theorem held_clearHandles (reader : LibraryReader) (capability : Capability) :
    reader.clearHandles.held capability = fun _ => none := by
  cases capability <;> rfl

theorem held_clearNonNoteHandles (reader : LibraryReader) (h : capability ≠ .operatorNote) :
    reader.clearNonNoteHandles.held capability = fun _ => none := by
  cases capability <;> first | rfl | exact absurd rfl h

theorem held_clearSourceHandles (reader : LibraryReader) (h : capability ≠ .source) :
    reader.clearSourceHandles.held capability = reader.held capability := by
  cases capability <;> first | rfl | exact absurd rfl h

theorem held_removeOperatorNoteHandle (reader : LibraryReader) (handle : String)
    (h : capability ≠ .operatorNote) :
    (reader.removeOperatorNoteHandle handle).held capability = reader.held capability := by
  cases capability <;> first | rfl | exact absurd rfl h

/-- The hit of a handle. -/
def table (reader : LibraryReader) (capability : Capability) (handle : String) : Option LibraryHit :=
  (reader.held capability handle).map capability.hit

/-- The maps as an office that draws handles. -/
def office (reader : LibraryReader) : Office Capability String LibraryHit :=
  ⟨reader.table, reader.minted⟩

theorem table_eq_some {reader : LibraryReader} {handle : String} {hit : LibraryHit} :
    reader.table capability handle = some hit ↔
      ∃ x, reader.held capability handle = some x ∧ capability.hit x = hit :=
  Option.map_eq_some_iff

/-! ## Sound readers -/

/-- What a meeting was looked up for when the handle was minted. -/
def Library.Offers (lib : Library) (meetingId : String) : (capability : Capability) →
    capability.Held → Prop
  | .audioDeletion, _ => lib.audioRetention meetingId = .retained
  | .audioPlayback, playback => meetingId ∉ lib.activeMeetingIds ∧
      lib.retainedAudioArtifact meetingId (RetainedAudioPlaybackHandle.source playback) =
        some (RetainedAudioPlaybackHandle.artifact playback)
  | .interruptedTranscription, _ => lib.interruptedCaptureIsTranscribable meetingId = true
  | _, _ => True

/-- The value in a map stands for a meeting that is listed. -/
structure Library.Stands (lib : Library) (meetingId : String) (capability : Capability)
    (x : capability.Held) : Prop where
  listed : ∃ row, lib.projection.row? meetingId = some row
  hit : capability.hit x = lib.projection.openHandle meetingId
  offers : lib.Offers meetingId capability x

structure Library.Sound (lib : Library) (reader : LibraryReader) : Prop where
  filed : lib.projection.Filed reader.hits
  orderly : reader.office.Orderly lib.uuid
  stands : ∀ {capability handle} {x : capability.Held}, capability ≠ .source →
    reader.held capability handle = some x → ∃ meetingId, lib.Stands meetingId capability x

variable {lib : Library} {reader middle later : LibraryReader}

theorem sound_new (lib : Library) : lib.Sound .new where
  filed := HeldProjection.Filed.empty
  orderly := by
    constructor
    · intro capability handle hit h
      cases capability <;> cases h
    · intro capability other handle hit found h
      cases capability <;> cases h
  stands := by
    intro capability handle x _ h
    cases capability <;> cases h

/-- What a part of a call does to a sound reader. -/
structure Library.Moves (lib : Library) (reader later : LibraryReader) : Prop where
  sound : lib.Sound later
  draws : Office.Later lib.uuid reader.office later.office

theorem Library.Moves.refl (h : lib.Sound reader) : lib.Moves reader reader :=
  ⟨h, Office.Later.refl _⟩

theorem Library.Moves.trans (h : lib.Moves reader middle) (hlater : lib.Moves middle later) :
    lib.Moves reader later :=
  ⟨hlater.sound, h.draws.trans hlater.draws⟩

/-- Nothing is dropped and nothing leaves the store. -/
structure Library.Extends (lib : Library) (reader later : LibraryReader) : Prop
    extends lib.Moves reader later where
  table : ∀ {capability handle hit}, reader.table capability handle = some hit →
    later.table capability handle = some hit
  hits : ∀ {key hit}, reader.hits key = some hit → later.hits key = some hit

theorem Library.Extends.refl (h : lib.Sound reader) : lib.Extends reader reader :=
  ⟨.refl h, id, id⟩

theorem Library.Extends.trans (h : lib.Extends reader middle) (hlater : lib.Extends middle later) :
    lib.Extends reader later :=
  ⟨h.toMoves.trans hlater.toMoves, fun hfound => hlater.table (h.table hfound),
    fun hfound => hlater.hits (h.hits hfound)⟩

/-- Handles are dropped. -/
theorem Library.Sound.drop (h : lib.Sound reader) (hhits : later.hits = reader.hits)
    (hminted : later.minted = reader.minted)
    (hheld : ∀ {capability handle} {x : capability.Held}, later.held capability handle = some x →
      reader.held capability handle = some x) : lib.Moves reader later := by
  have htable : ∀ {capability handle hit}, later.table capability handle = some hit →
      reader.table capability handle = some hit := by
    intro capability handle hit hfound
    obtain ⟨x, hx, hhit⟩ := table_eq_some.mp hfound
    exact table_eq_some.mpr ⟨x, hheld hx, hhit⟩
  obtain ⟨horderly, hlater⟩ := h.orderly.drop later.office hminted.symm htable
  refine ⟨⟨?_, horderly, fun hcapability hfound => h.stands hcapability (hheld hfound)⟩, hlater⟩
  rw [hhits]
  exact h.filed

theorem Library.Sound.clearHandles (h : lib.Sound reader) : lib.Moves reader reader.clearHandles :=
  h.drop rfl rfl fun hfound => by
    rw [held_clearHandles] at hfound
    cases hfound

theorem Library.Sound.clearNonNoteHandles (h : lib.Sound reader) :
    lib.Moves reader reader.clearNonNoteHandles :=
  h.drop rfl rfl fun {capability} _ _ hfound => by
    by_cases hcapability : capability = .operatorNote
    · subst hcapability
      exact hfound
    · rw [held_clearNonNoteHandles reader hcapability] at hfound
      cases hfound

/-- The store is changed. -/
theorem Library.Sound.refill (h : lib.Sound reader) {hits : Retained}
    (hhits : lib.projection.Filed hits) : lib.Moves reader { reader with hits := hits } :=
  ⟨⟨hhits, h.orderly, h.stands⟩, Office.Later.refl reader.office⟩

/-- A handle is minted. -/
theorem Library.Sound.mint (huuid : Function.Injective lib.uuid) (h : lib.Sound reader)
    (capability : Capability) (x : capability.Held)
    (hstands : capability ≠ .source → ∃ meetingId, lib.Stands meetingId capability x) :
    lib.Extends reader (lib.mint reader capability x).2 ∧
      (lib.mint reader capability x).2.table capability (lib.mint reader capability x).1 =
        some (capability.hit x) := by
  unfold Library.mint
  dsimp only
  have hold : ∀ {other handle} {y : other.Held},
      (reader.insert (lib.uuid reader.minted) capability x).held other handle = some y →
      (∃ heq : other = capability, handle = lib.uuid reader.minted ∧ heq ▸ y = x) ∨
        reader.held other handle = some y := by
    intro other handle y hfound
    by_cases hother : other = capability
    · subst hother
      rw [held_insert_self] at hfound
      by_cases hhandle : handle = lib.uuid reader.minted
      · rw [hhandle, Function.update_self] at hfound
        exact Or.inl ⟨rfl, hhandle, (Option.some.inj hfound).symm⟩
      · rw [Function.update_of_ne hhandle] at hfound
        exact Or.inr hfound
    · rw [held_insert_of_ne reader _ x hother] at hfound
      exact Or.inr hfound
  obtain ⟨horderly, hlater⟩ := h.orderly.draw huuid capability
    (reader.insert (lib.uuid reader.minted) capability x).office (minted_insert _ _ _ _) (by
      intro other handle hit hfound
      obtain ⟨y, hy, hhit⟩ := table_eq_some.mp hfound
      rcases hold hy with ⟨heq, hhandle, -⟩ | hy
      · exact Or.inl ⟨heq, hhandle⟩
      · exact Or.inr (table_eq_some.mpr ⟨y, hy, hhit⟩))
  refine ⟨⟨⟨⟨?_, horderly, ?_⟩, hlater⟩, ?_, ?_⟩, ?_⟩
  · rw [hits_insert]
    exact h.filed
  · intro other handle y hother hfound
    rcases hold hfound with ⟨rfl, -, rfl⟩ | hfound
    · exact hstands hother
    · exact h.stands hother hfound
  · intro other handle hit hfound
    obtain ⟨i, hi, rfl⟩ := h.orderly.drawn hfound
    have hne : lib.uuid i ≠ lib.uuid reader.minted := fun heq => absurd (huuid heq) (Nat.ne_of_lt hi)
    obtain ⟨y, hy, hhit⟩ := table_eq_some.mp hfound
    refine table_eq_some.mpr ⟨y, ?_, hhit⟩
    by_cases hother : other = capability
    · subst hother
      rw [held_insert_self, Function.update_of_ne hne]
      exact hy
    · rw [held_insert_of_ne reader _ x hother]
      exact hy
  · intro key hit hfound
    rw [hits_insert]
    exact hfound
  · refine table_eq_some.mpr ⟨x, ?_, rfl⟩
    rw [held_insert_self, Function.update_self]

/-! ## Handles that are given out -/

section Unicode

variable [Unicode] {row : LibraryRow}

/-- A handle is in its map, and what it stands for opens for its meeting. -/
def Library.Acceptable (lib : Library) (reader : LibraryReader) (given : Minted) : Prop :=
  ∃ hit opened, reader.table given.capability given.handle = some hit ∧
    lib.openSnapshot reader hit = .ok opened ∧ opened.meetingId = given.meetingId

/-- What opens, opens in a store with more hits. -/
theorem openSnapshot_mono (hhits : ∀ {key hit}, reader.hits key = some hit → later.hits key = some hit)
    {hit : LibraryHit} {opened : OpenedLibraryHit} (h : lib.openSnapshot reader hit = .ok opened) :
    lib.openSnapshot later hit = .ok opened := by
  unfold Library.openSnapshot at h ⊢
  obtain ⟨hid, found, hfound, hopened⟩ := HeldProjection.openSnapshot_eq_ok.mp h
  exact HeldProjection.openSnapshot_eq_ok.mpr ⟨hid, found, hhits hfound, hopened⟩

theorem Library.Acceptable.extends {given : Minted} (h : lib.Acceptable reader given)
    (hlater : lib.Extends reader later) : lib.Acceptable later given := by
  obtain ⟨hit, opened, hfound, hopened, hid⟩ := h
  exact ⟨hit, opened, hlater.table hfound, openSnapshot_mono hlater.hits hopened, hid⟩

/-- Handles are minted and given out. -/
structure Library.Hands (lib : Library) (reader : LibraryReader) (handles : List Minted)
    (later : LibraryReader) : Prop extends lib.Extends reader later where
  acceptable : ∀ given ∈ handles, lib.Acceptable later given

theorem Library.Extends.hands (h : lib.Extends reader later) : lib.Hands reader [] later :=
  ⟨h, fun _ hgiven => absurd hgiven List.not_mem_nil⟩

theorem Library.Hands.append {first second : List Minted} (h : lib.Hands reader first middle)
    (hlater : lib.Hands middle second later) : lib.Hands reader (first ++ second) later := by
  refine ⟨h.toExtends.trans hlater.toExtends, fun given hgiven => ?_⟩
  rcases List.mem_append.mp hgiven with hgiven | hgiven
  · exact (h.acceptable given hgiven).extends hlater.toExtends
  · exact hlater.acceptable given hgiven

/-! ### Meetings -/

/-- The rows of the projection are those of a build. -/
def Library.Rows (lib : Library) : Prop :=
  ∀ row ∈ lib.projection.rows, row.IsSound lib.projection.excludedMeetingIds

section

omit [Unicode]

/-- `meeting_handle` only adds to the store. -/
theorem Library.Sound.retain_open (h : lib.Sound reader) {meetingId : String}
    (hrow : lib.projection.row? meetingId = some row) : lib.Extends reader { reader with
      hits := lib.projection.retain reader.hits (.meeting (lib.projection.authority row) none) } :=
  ⟨h.refill (h.filed.retain_open hrow), id, h.filed.retain_open_keeps hrow⟩

theorem meetingHandle_of_row {meetingId : String} (hrow : lib.projection.row? meetingId = some row) :
    lib.meetingHandle reader meetingId =
      (.ok (lib.projection.openHandle meetingId), { reader with
        hits := lib.projection.retain reader.hits (.meeting (lib.projection.authority row) none) }) := by
  unfold Library.meetingHandle
  rw [HeldProjection.meetingHandle_of_row hrow]

theorem meetingHandle_of_none {meetingId : String} (hrow : lib.projection.row? meetingId = none) :
    lib.meetingHandle reader meetingId = (.error .invalidRequest, reader) := by
  unfold Library.meetingHandle
  rw [HeldProjection.meetingHandle_of_none hrow]

theorem hits_retain_open {meetingId : String} (hrow : lib.projection.row? meetingId = some row)
    (store : Retained) : lib.projection.retain store (.meeting (lib.projection.authority row) none)
      (lib.projection.openHandle meetingId).key =
        some (.meeting (lib.projection.authority row) none) := by
  have hkey : (lib.projection.openHandle meetingId).key =
      lib.projection.storeKey (hitKey (.meeting (lib.projection.authority row) none)) := by
    rw [← (HeldProjection.row?_eq_some hrow).2]
    rfl
  rw [hkey, HeldProjection.retain, Function.update_self]

end

/-- A handle of a meeting is accepted while the meeting's hit is in the store. -/
theorem acceptable_of_stored (hrows : lib.Rows) {given : Minted}
    (hrow : lib.projection.row? given.meetingId = some row)
    (htable : reader.table given.capability given.handle =
      some (lib.projection.openHandle given.meetingId))
    (hstored : reader.hits (lib.projection.openHandle given.meetingId).key =
      some (.meeting (lib.projection.authority row) none)) : lib.Acceptable reader given := by
  obtain ⟨artifact, -, hopened⟩ := HeldProjection.openSnapshot_open hrow
    (hrows row (HeldProjection.row?_eq_some hrow).1) hstored
  exact ⟨_, _, htable, hopened, rfl⟩

/-- A function that mints a meeting's handle: what it returns is accepted. -/
theorem Library.Sound.retainFor (huuid : Function.Injective lib.uuid) (hrows : lib.Rows)
    (h : lib.Sound reader) {capability : Capability} {offered : Bool}
    {make : LibraryHit → Option capability.Held} {meetingId : String}
    (hmake : offered = true → ∀ x, make (lib.projection.openHandle meetingId) = some x →
      capability.hit x = lib.projection.openHandle meetingId ∧ lib.Offers meetingId capability x) :
    lib.Hands reader
      (handed capability meetingId (lib.retainFor capability offered make reader meetingId).1)
      (lib.retainFor capability offered make reader meetingId).2 := by
  unfold Library.retainFor
  split
  · rename_i hoffered
    cases hrow : lib.projection.row? meetingId with
    | none =>
      rw [meetingHandle_of_none hrow]
      exact (Library.Extends.refl h).hands
    | some row =>
      have hopen := h.retain_open hrow
      rw [meetingHandle_of_row hrow]
      dsimp only
      cases hmade : make (lib.projection.openHandle meetingId) with
      | none => exact hopen.hands
      | some x =>
        obtain ⟨hhit, hoffers⟩ := hmake hoffered x hmade
        obtain ⟨hextends, htable⟩ := hopen.sound.mint huuid capability x
          (fun _ => ⟨meetingId, ⟨row, hrow⟩, hhit, hoffers⟩)
        refine ⟨hopen.trans hextends, fun given hgiven => ?_⟩
        obtain rfl := List.mem_singleton.mp hgiven
        apply acceptable_of_stored hrows hrow (hhit ▸ htable)
        exact hextends.hits (hits_retain_open hrow reader.hits)
  · exact (Library.Extends.refl h).hands

omit [Unicode] in
/-- A meeting that is looked up has its hit in the store, even if it was not there before. -/
theorem hits_retainFor {capability : Capability} (make : LibraryHit → Option capability.Held)
    {meetingId : String} (hrow : lib.projection.row? meetingId = some row) :
    (lib.retainFor capability true make reader meetingId).2.hits
      (lib.projection.openHandle meetingId).key =
        some (.meeting (lib.projection.authority row) none) := by
  unfold Library.retainFor
  rw [if_pos rfl, meetingHandle_of_row hrow]
  dsimp only
  split
  · exact hits_retain_open hrow reader.hits
  · unfold Library.mint
    rw [hits_insert]
    exact hits_retain_open hrow reader.hits

section Minting

variable (huuid : Function.Injective lib.uuid) (hrows : lib.Rows) (h : lib.Sound reader)
  (meetingId : String)

include huuid hrows h

theorem retainTranscriptHandle_hands : lib.Hands reader
    (handed .source meetingId (lib.retainTranscriptHandle reader meetingId).1)
    (lib.retainTranscriptHandle reader meetingId).2 :=
  h.retainFor huuid hrows fun _ _ hx => by
    cases hx
    exact ⟨rfl, trivial⟩

theorem retainOperatorNoteHandle_hands : lib.Hands reader
    (handed .operatorNote meetingId (lib.retainOperatorNoteHandle reader meetingId).1)
    (lib.retainOperatorNoteHandle reader meetingId).2 :=
  h.retainFor huuid hrows fun _ _ hx => by
    cases hx
    exact ⟨rfl, trivial⟩

theorem retainAudioDeletionHandle_hands (retained : Bool)
    (hretained : retained = true → lib.audioRetention meetingId = .retained) : lib.Hands reader
    (handed .audioDeletion meetingId (lib.retainAudioDeletionHandle reader meetingId retained).1)
    (lib.retainAudioDeletionHandle reader meetingId retained).2 :=
  h.retainFor huuid hrows fun hoffered _ hx => by
    cases hx
    exact ⟨rfl, hretained hoffered⟩

theorem retainTranscriptDeletionHandle_hands : lib.Hands reader
    (handed .transcriptDeletion meetingId (lib.retainTranscriptDeletionHandle reader meetingId).1)
    (lib.retainTranscriptDeletionHandle reader meetingId).2 :=
  h.retainFor huuid hrows fun _ _ hx => by
    cases hx
    exact ⟨rfl, trivial⟩

theorem retainMeetingDeletionHandle_hands : lib.Hands reader
    (handed .meetingDeletion meetingId (lib.retainMeetingDeletionHandle reader meetingId).1)
    (lib.retainMeetingDeletionHandle reader meetingId).2 :=
  h.retainFor huuid hrows fun _ _ hx => by
    cases hx
    exact ⟨rfl, trivial⟩

theorem retainInterruptedTranscriptionHandle_hands : lib.Hands reader
    (handed .interruptedTranscription meetingId
      (lib.retainInterruptedTranscriptionHandle reader meetingId).1)
    (lib.retainInterruptedTranscriptionHandle reader meetingId).2 :=
  h.retainFor huuid hrows fun hoffered _ hx => by
    cases hx
    exact ⟨rfl, hoffered⟩

theorem retainAudioPlaybackHandle_hands (hcurrent : lib.isCurrent = true)
    (source : RetainedAudioSource) : lib.Hands reader
    (handed .audioPlayback meetingId (lib.retainAudioPlaybackHandle reader meetingId source).1)
    (lib.retainAudioPlaybackHandle reader meetingId source).2 := by
  unfold Library.retainAudioPlaybackHandle Library.revalidate
  rw [if_pos hcurrent]
  apply h.retainFor huuid hrows
  intro hoffered x hx
  obtain ⟨artifact, hartifact, rfl⟩ := Option.map_eq_some_iff.mp hx
  exact ⟨rfl, of_decide_eq_true hoffered, hartifact⟩

end Minting

end Unicode

end LibraryReader

end YawnApp.Desktop
