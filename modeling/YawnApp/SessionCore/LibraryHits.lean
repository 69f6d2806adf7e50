/-
  SessionCore/LibraryHits.lean --- the hits that a projection retains
  (`library_read.rs`).

  A projection seals what a call found into a store of its own, and the caller
  keeps the key.  The key of a hit is made from its content: a search and the
  reading of a note empty the store before they fill it, a meeting's handle is
  added to what is there.
-/
import Mathlib.Data.List.Destutter
import YawnApp.SessionCore.LibraryRows
import YawnApp.SessionCore.MeetingTitle
import YawnApp.SessionCore.SearchText

set_option autoImplicit false

namespace YawnApp.SessionCore

open YawnApp.Foundation List

namespace LibraryRead

/-! ## Hits -/

structure HitAuthority where
  meetingId : String
  createdAtEpochSeconds : UInt64
  meetingRecordSha256 : String
  lifecycle : MeetingLifecycle
  attemptSha256 : String
  transcriptSha256 : Option String
  transcriptRelativePath : Option String
  noteJsonSha256 : Option String
  noteMarkdownSha256 : Option String
  metadataIdentity : String
deriving DecidableEq

inductive SealedHit where
  | claim (authority : HitAuthority) (claim : StoredClaim) (normalizedQuery : List Char)
  | transcript (authority : HitAuthority) (sourceTurnIndex : UInt32)
      (originalScalarStart originalScalarEnd : Nat) (normalizedQuery : List Char)
  | withheld (authority : HitAuthority) (sourceTurnIndex : UInt32) (normalizedQuery : List Char)
  | meeting (authority : HitAuthority) (normalizedQuery : Option (List Char))
deriving DecidableEq

/-- What a caller keeps of a hit. -/
structure LibraryHit where
  projectionId : String
  key : String
deriving DecidableEq

structure OpenedClaimLocator where
  turn : Nat
  sourceTurnIndex : UInt32
  start : Nat
  stop : Nat
  textSha256 : String
deriving DecidableEq

/-- `OpenedLibraryHit`.  The evidence state of a claim has one value. -/
inductive OpenedLibraryHit where
  | claim (meetingId : String) (claimOrdinal : Nat) (claimSha256 : String) (claimType : ClaimType)
      (claim : String) (locators : List OpenedClaimLocator)
      (noteJsonSha256 noteMarkdownSha256 transcriptSha256 : String)
  | transcript (meetingId : String) (sourceTurnIndex : UInt32)
      (originalScalarStart originalScalarEnd : Nat) (text : String)
      (transcriptArtifact : ArtifactRef)
  | withheld (meetingId : String) (sourceTurnIndex : UInt32)
  | meeting (meetingId : String) (title folder : Option String)
      (transcriptArtifact : Option ArtifactRef)

def OpenedLibraryHit.meetingId : OpenedLibraryHit → String
  | .claim meetingId .. => meetingId
  | .transcript meetingId .. => meetingId
  | .withheld meetingId _ => meetingId
  | .meeting meetingId .. => meetingId

structure OpenedClaimEvidence where
  meetingId : String
  sourceTurnIndex : UInt32
  start : Nat
  stop : Nat
  text : String

/-- `hit_authority` -/
def hitAuthority : SealedHit → HitAuthority
  | .claim authority _ _ => authority
  | .transcript authority _ _ _ _ => authority
  | .withheld authority _ _ => authority
  | .meeting authority _ => authority

/-- `hit_meeting_id` -/
def hitMeetingId (hit : SealedHit) : String := (hitAuthority hit).meetingId

/-- `hit_key`: the `key` that every hit is made with. -/
def hitKey : SealedHit → String
  | .claim authority claim _ =>
    authority.meetingId ++ ":c:" ++ authority.noteJsonSha256.getD "" ++ ":" ++ toString claim.ordinal
  | .transcript authority index start stop _ =>
    authority.meetingId ++ ":t:" ++ toString index.toNat ++ ":" ++ toString start ++ ":" ++
      toString stop
  | .withheld authority index _ => authority.meetingId ++ ":w:" ++ toString index.toNat
  | .meeting authority (some _) => authority.meetingId ++ ":m"
  | .meeting authority none => authority.meetingId ++ ":o"

/-! ### Their order -/

/-- `u64::MAX` -/
def maxNumber : Nat := 2 ^ 64 - 1

/-- `hit_kind` -/
def hitKind : SealedHit → Nat
  | .claim .. => 0
  | .transcript .. => 1
  | .withheld .. => 2
  | .meeting .. => 3

/-- `hit_location` -/
def hitLocation : SealedHit → Nat × Nat
  | .claim _ claim _ =>
    match claim.locators.head? with
    | some locator => (locator.projected.turn, locator.projected.start)
    | none => (maxNumber, maxNumber)
  | .transcript _ index start _ _ => (index.toNat, start)
  | .withheld _ index _ => (index.toNat, maxNumber)
  | .meeting .. => (maxNumber, maxNumber)

/-- `hit_claim_digest` -/
def hitClaimDigest : SealedHit → String
  | .claim _ claim _ => claim.sha256
  | _ => ""

/-- `hit_claim_ordinal` -/
def hitClaimOrdinal : SealedHit → Nat
  | .claim _ claim _ => claim.ordinal
  | _ => 0

/-- `hit_order`: the newest meeting first. -/
def hitOrder (left right : SealedHit) : Ordering :=
  (compare (hitAuthority right).createdAtEpochSeconds (hitAuthority left).createdAtEpochSeconds).then <|
  (compare (hitMeetingId left) (hitMeetingId right)).then <|
  (compare (hitLocation left).1 (hitLocation right).1).then <|
  (compare (hitLocation left).2 (hitLocation right).2).then <|
  (compare (hitKind left) (hitKind right)).then <|
  (compare (hitClaimDigest left) (hitClaimDigest right)).then <|
  (compare (hitClaimOrdinal left) (hitClaimOrdinal right)).then <|
  compare (hitKey left) (hitKey right)

/-! ## Projections -/

/-- A projection with what its hits are bound to. -/
structure HeldProjection extends LibraryProjection where
  snapshotId : String
  excludedMeetingIds : Finset String
  /-- `MetadataState::identity`, which tells records of other bytes apart too. -/
  metadataIdentity : String

/-- The hits that a projection retains, by their keys. -/
abbrev Retained : Type := String → Option SealedHit

/-- What `rebuild_with_accepted_claims_excluding` returns for the meetings to leave out. -/
abbrev Rebuilds : Type := Finset String → Except LibraryReadError HeldProjection

namespace HeldProjection

variable (p : HeldProjection)

def row? (meetingId : String) : Option LibraryRow :=
  p.rows.find? fun row => row.meetingId = meetingId

def authority (row : LibraryRow) : HitAuthority where
  meetingId := row.meetingId
  createdAtEpochSeconds := row.createdAtEpochSeconds
  meetingRecordSha256 := row.meetingRecordSha256
  lifecycle := row.lifecycle
  attemptSha256 := row.attemptSha256
  transcriptSha256 := row.transcriptSha256
  transcriptRelativePath := row.transcriptRelativePath
  noteJsonSha256 := row.noteJsonSha256
  noteMarkdownSha256 := row.noteMarkdownSha256
  metadataIdentity := p.metadataIdentity

/-- The key of the store: the snapshot's and the hit's. -/
def storeKey (key : String) : String := p.snapshotId ++ ":" ++ key

def libraryHit (hit : SealedHit) : LibraryHit := ⟨p.snapshotId, p.storeKey (hitKey hit)⟩

/-- A hit that is put in the store. -/
def retain (store : Retained) (hit : SealedHit) : Retained :=
  Function.update store (p.storeKey (hitKey hit)) (some hit)

end HeldProjection

/-! ## Search -/

inductive FolderFilter where
  | any
  | unfiled
  | named (id : String)
deriving DecidableEq

structure LibraryFilter where
  folder : FolderFilter
  startEpochSeconds : Option UInt64
  endEpochSeconds : Option UInt64
  title : Option String
deriving DecidableEq

/-- The filter that admits everything. -/
def LibraryFilter.default : LibraryFilter := ⟨.any, none, none, none⟩

/-- `is_empty` -/
def LibraryFilter.isEmpty (filter : LibraryFilter) : Bool := filter = .default

/-- `transcript_artifact` -/
def transcriptArtifact (row : LibraryRow) : Except LibraryReadError (Option ArtifactRef) :=
  match row.transcriptRelativePath, row.transcriptSha256 with
  | some relativePath, some sha256 => .ok (some { relativePath, sha256 })
  | none, none => .ok none
  | _, _ => .error .snapshotStale

section Searching

variable [Unicode]

/-- `claim_matches`: the words of a claim or of a passage it points to. -/
def claimMatches (row : LibraryRow) (claim : StoredClaim) (normalizedQuery : List Char) : Bool :=
  !(normalizedMatches claim.text normalizedQuery).isEmpty ||
    claim.locators.any fun locator =>
      match row.turns.find? fun turn => turn.index == locator.sourceTurnIndex && !turn.gated with
      | none => false
      | some turn =>
        match scalarSlice turn.text locator.projected.start locator.projected.stop with
        | none => false
        | some text => !(normalizedMatches text normalizedQuery).isEmpty

/-- `admits` -/
def admits (row : LibraryRow) (filter : LibraryFilter) : Bool :=
  (match filter.folder with
    | .any => true
    | .unfiled => row.folderId.isNone
    | .named id => row.folderId == some id) &&
  !(filter.startEpochSeconds.any fun start => row.createdAtEpochSeconds < start) &&
  !(filter.endEpochSeconds.any fun stop => row.createdAtEpochSeconds > stop) &&
  (match filter.title with
    | none => true
    | some needle =>
      match normalizeQuery needle with
      | .error _ => true
      | .ok normalized =>
        let name := (row.title.or (MeetingTitle.derivedTitle
          (row.turns.map fun turn => (turn.text, turn.gated)))).getD ""
        !(normalizedMatches name normalized).isEmpty)

namespace HeldProjection

variable (p : HeldProjection)

/-- `filtered_rows` -/
def filteredRows (filter : LibraryFilter) : List LibraryRow :=
  p.rows.filter fun row => admits row filter

/-- The hits of one row, in the order in which `matches` pushes them. -/
def rowMatches (normalized : List Char) (row : LibraryRow) : List SealedHit :=
  let authority := p.authority row
  ((row.claims.filter fun claim => claimMatches row claim normalized).map fun claim =>
    SealedHit.claim authority claim normalized) ++
  (row.turns.flatMap fun turn => (normalizedMatches turn.text normalized).map fun span =>
    if turn.gated then SealedHit.withheld authority turn.index normalized
    else SealedHit.transcript authority turn.index span.1 span.2 normalized) ++
  (if (row.title.any fun title => !(normalizedMatches title normalized).isEmpty) ||
      row.folder.any fun folder => !(normalizedMatches folder normalized).isEmpty then
    [SealedHit.meeting authority (some normalized)] else [])

/-- `matches`: neighbours of one key are one hit. -/
def «matches» (query : String) : Except LibraryReadError (List SealedHit) := do
  let normalized ← normalizeSearchQuery query
  let hits := p.rows.flatMap (p.rowMatches normalized)
  return (hits.mergeSort fun left right => (hitOrder left right).isLE).destutter fun left right =>
    hitKey left ≠ hitKey right

end HeldProjection

/-- `MAX_SEARCH_RESULTS` -/
def maxSearchResults : Nat := 100

structure SearchHits where
  hits : List LibraryHit
  total : Nat

namespace HeldProjection

variable (p : HeldProjection)

omit [Unicode] in
/-- `seal`, with the store that it leaves. -/
def «seal» (hits : List SealedHit) : List LibraryHit × Retained :=
  (hits.map p.libraryHit, hits.foldl p.retain fun _ => none)

/-- `search_filtered_excluding`, with the store that it leaves. -/
def searchFilteredExcluding (store : Retained) (query : String) (filter : LibraryFilter)
    (excluded : String → Bool) : Except LibraryReadError SearchHits × Retained :=
  match p.matches query with
  | .error e => (.error e, store)
  | .ok hits =>
    let hits := hits.filter fun hit => !excluded (hitMeetingId hit)
    let hits := if filter.isEmpty then hits else
      let admitted := (p.filteredRows filter).map LibraryRow.meetingId
      hits.filter fun hit => admitted.contains (hitMeetingId hit)
    let sealed := p.seal (hits.take maxSearchResults)
    (.ok { hits := sealed.1, total := hits.length }, sealed.2)

/-! ## Notes and meetings -/

/-- The loop of `note_claims`: the hits that it retained before a text it refuses stay. -/
def retainClaims (row : LibraryRow) : List StoredClaim → Retained →
    Except LibraryReadError (List LibraryHit) × Retained
  | [], store => (.ok [], store)
  | claim :: rest, store =>
    match normalizeQuery claim.text with
    | .error e => (.error e, store)
    | .ok normalizedQuery =>
      let hit := SealedHit.claim (p.authority row) claim normalizedQuery
      let later := retainClaims row rest (p.retain store hit)
      (later.1.map fun hits => p.libraryHit hit :: hits, later.2)

/-- `note_claims`, with the store that it leaves. -/
def noteClaims (store : Retained) (meetingId : String) :
    Except LibraryReadError (List LibraryHit) × Retained :=
  match p.row? meetingId with
  | none => (.error .invalidRequest, store)
  | some row => p.retainClaims row row.claims fun _ => none

omit [Unicode] in
/-- `meeting_handle`, with the store that it leaves. -/
def meetingHandle (store : Retained) (meetingId : String) :
    Except LibraryReadError LibraryHit × Retained :=
  match p.row? meetingId with
  | none => (.error .invalidRequest, store)
  | some row =>
    let hit := SealedHit.meeting (p.authority row) none
    (.ok (p.libraryHit hit), p.retain store hit)

/-! ## Opening -/

omit [Unicode] in
/-- `validate_snapshot_excluding` -/
def validateSnapshotExcluding (rebuilds : Rebuilds) (excluded : Finset String) :
    Except LibraryReadError Unit := do
  refuseIf (excluded ≠ p.excludedMeetingIds) .snapshotStale
  let rebuilt ← rebuilds excluded
  refuseIf (rebuilt.rows ≠ p.rows ∨ rebuilt.quarantinedMeetings ≠ p.quarantinedMeetings ∨
    rebuilt.metadata ≠ p.metadata ∨ rebuilt.metadataIdentity ≠ p.metadataIdentity) .snapshotStale

end HeldProjection

/-- The claim of a row that a hit was made for. -/
def openClaim (row : LibraryRow) (claim : StoredClaim) (normalizedQuery : List Char) :
    Except LibraryReadError OpenedLibraryHit := do
  let current ← orRefuse (row.claims.find? fun candidate => candidate.ordinal = claim.ordinal)
    .snapshotStale
  refuseIf (current ≠ claim ∨ claimMatches row current normalizedQuery = false) .snapshotStale
  let noteJsonSha256 ← orRefuse row.noteJsonSha256 .snapshotStale
  let noteMarkdownSha256 ← orRefuse row.noteMarkdownSha256 .snapshotStale
  let transcriptSha256 ← orRefuse row.transcriptSha256 .snapshotStale
  return .claim row.meetingId current.ordinal current.sha256 current.claimType current.text
    (current.locators.map fun locator => {
      turn := locator.projected.turn
      sourceTurnIndex := locator.sourceTurnIndex
      start := locator.projected.start
      stop := locator.projected.stop
      textSha256 := locator.projected.textSha256 })
    noteJsonSha256 noteMarkdownSha256 transcriptSha256

/-- The passage of a row that a hit was made for. -/
def openTranscript (row : LibraryRow) (index : UInt32) (start stop : Nat)
    (normalizedQuery : List Char) : Except LibraryReadError OpenedLibraryHit := do
  let turn ← orRefuse (row.turns.find? fun turn => turn.index == index && !turn.gated) .snapshotStale
  refuseIf (spanIsValid turn.text start stop = false) .snapshotStale
  refuseIf ((start, stop) ∉ normalizedMatches turn.text normalizedQuery) .snapshotStale
  let text ← orRefuse (scalarSlice turn.text start stop) .snapshotStale
  let artifact ← transcriptArtifact row
  let artifact ← orRefuse artifact .snapshotStale
  return .transcript row.meetingId index start stop text artifact

/-- The withheld turn of a row that a hit was made for. -/
def openWithheld (row : LibraryRow) (index : UInt32) (normalizedQuery : List Char) :
    Except LibraryReadError OpenedLibraryHit := do
  refuseIf ((row.turns.any fun turn => turn.index == index && turn.gated) = false) .snapshotStale
  let turn ← orRefuse (row.turns.find? fun turn => turn.index == index) .snapshotStale
  refuseIf ((normalizedMatches turn.text normalizedQuery).isEmpty = true) .snapshotStale
  return .withheld row.meetingId index

/-- The meeting of a row; one that was found by a search has to match still. -/
def openMeeting (row : LibraryRow) (normalizedQuery : Option (List Char)) :
    Except LibraryReadError OpenedLibraryHit := do
  refuseIf ((normalizedQuery.any fun query =>
    (row.title.all fun title => (normalizedMatches title query).isEmpty) &&
      row.folder.all fun folder => (normalizedMatches folder query).isEmpty) = true) .snapshotStale
  let artifact ← transcriptArtifact row
  return .meeting row.meetingId row.title row.folder artifact

namespace HeldProjection

/-- The match of `open_inner` on the projection that is current. -/
def openSealed (current : HeldProjection) (hit : SealedHit) :
    Except LibraryReadError OpenedLibraryHit := do
  let row ← orRefuse (current.row? (hitMeetingId hit)) .snapshotStale
  refuseIf (current.authority row ≠ hitAuthority hit) .snapshotStale
  match hit with
  | .claim _ claim normalizedQuery => openClaim row claim normalizedQuery
  | .transcript _ index start stop normalizedQuery => openTranscript row index start stop normalizedQuery
  | .withheld _ index normalizedQuery => openWithheld row index normalizedQuery
  | .meeting _ normalizedQuery => openMeeting row normalizedQuery

variable (p : HeldProjection)

/-- `open_inner`, with what the storage was rebuilt to if there is one to look at. -/
def openInner (store : Retained) (rebuilt : Option (Except LibraryReadError HeldProjection))
    (handle : LibraryHit) : Except LibraryReadError OpenedLibraryHit := do
  refuseIf (handle.projectionId ≠ p.snapshotId) .snapshotStale
  let hit ← orRefuse (store handle.key) .snapshotStale
  let current ← (rebuilt.getD (.ok p)).mapError fun _ => .snapshotStale
  openSealed current hit

/-- `open_snapshot` -/
def openSnapshot (store : Retained) (handle : LibraryHit) :
    Except LibraryReadError OpenedLibraryHit :=
  p.openInner store none handle

/-- `open_excluding` -/
def openExcluding (store : Retained) (rebuilds : Rebuilds) (handle : LibraryHit)
    (excluded : Finset String) : Except LibraryReadError OpenedLibraryHit := do
  refuseIf (excluded ≠ p.excludedMeetingIds) .snapshotStale
  p.openInner store (some (rebuilds p.excludedMeetingIds)) handle

/-- `open_claim_evidence_excluding` -/
def openClaimEvidenceExcluding (store : Retained) (rebuilds : Rebuilds) (handle : LibraryHit)
    (locatorOrdinal : Nat) (excluded : Finset String) :
    Except LibraryReadError OpenedClaimEvidence := do
  match ← p.openExcluding store rebuilds handle excluded with
  | .claim meetingId _ _ _ _ locators noteJsonSha256 noteMarkdownSha256 transcriptSha256 =>
    let locator ← orRefuse locators[locatorOrdinal]? .invalidRequest
    let rebuilt ← (rebuilds excluded).mapError fun _ => .snapshotStale
    let row ← orRefuse (rebuilt.row? meetingId) .snapshotStale
    refuseIf (row.noteJsonSha256 ≠ some noteJsonSha256 ∨
      row.noteMarkdownSha256 ≠ some noteMarkdownSha256 ∨
      row.transcriptSha256 ≠ some transcriptSha256) .snapshotStale
    let turn ← orRefuse (row.turns.find? fun turn => turn.index == locator.sourceTurnIndex &&
      !turn.gated) .snapshotStale
    let text ← orRefuse (scalarSlice turn.text locator.start locator.stop) .snapshotStale
    return {
      meetingId
      sourceTurnIndex := locator.sourceTurnIndex
      start := locator.start
      stop := locator.stop
      text }
  | _ => throw .invalidRequest

end HeldProjection

end Searching

/-! ## Rows -/

/-- What the inspection of a meeting makes sure of for every row. -/
structure LibraryRow.IsSound (excluded : Finset String) (row : LibraryRow) : Prop where
  transcript : row.transcriptRelativePath.isSome = row.transcriptSha256.isSome
  ready : row.lifecycle = .ready → row.transcriptSha256.isSome = true
  included : row.meetingId ∉ excluded

section Rows

variable {B : Type} [Platform B] [DecidableEq B] {limits : ReadLimits} {source : ClaimSource}
  {excluded : Finset String}

/-- A note is read against the transcript it was made from, so a ready meeting has one. -/
theorem inspectMeeting_isSound {name : String} {m : MeetingDirectory B} {row : LibraryRow}
    (hname : name ∉ excluded) (h : (inspectMeeting limits source name m).answer = .ok row) :
    row.IsSound excluded := by
  have hid := (inspectMeeting_row h).1
  unfold inspectMeeting at h
  simp only [Spending.bind_answer_eq_ok] at h
  obtain ⟨meeting, -, record, -, reference, -, attempt, -, transcript, -, note, hnote, _, -, hrow⟩ := h
  cases hrow
  refine { transcript := ?_, ready := fun hready => ?_, included := hid ▸ hname }
  · rw [Option.isSome_map, Option.isSome_map]
  · have hnote : inspectNote source meeting transcript = .ok note := hnote
    unfold inspectNote at hnote
    rw [if_pos hready] at hnote
    simp only [bind_eq_ok, orRefuse_eq_ok] at hnote
    obtain ⟨_, -, current, hcurrent, -⟩ := hnote
    rw [hcurrent]
    rfl

theorem inspectAll_isSound :
    ∀ {entries : List (String × MeetingDirectory B)} {total : Nat} {rows : List (Option LibraryRow)},
      inspectAll limits source entries total = .ok rows →
      (∀ entry ∈ entries, entry.1 ∉ excluded) → ∀ row, some row ∈ rows → row.IsSound excluded := by
  intro entries
  induction entries with
  | nil =>
    intro total rows h _ row hrow
    cases h
    cases hrow
  | cons entry rest ih =>
    intro total rows h hnames row hrow
    unfold inspectAll Spending.runEach at h
    simp only [bind_eq_ok] at h
    obtain ⟨first, hfirst, later, hlater, heq⟩ := h
    cases heq
    rcases mem_cons.mp hrow with rfl | hrow
    · exact inspectMeeting_isSound (hnames entry mem_cons_self)
        (run_eq_ok (verdict_eq_some hfirst))
    · exact ih hlater (fun other hother => hnames other (mem_cons_of_mem _ hother)) row hrow

omit [Platform B] [DecidableEq B] in
theorem label_isSound (document : MetadataDocument) {row : LibraryRow} (h : row.IsSound excluded) :
    (MetadataDocument.label document row).IsSound excluded := by
  unfold MetadataDocument.label
  split
  · exact h
  · exact { transcript := h.transcript, ready := h.ready, included := h.included }

end Rows

theorem LibraryRow.IsSound.exists_artifact {excluded : Finset String} {row : LibraryRow}
    (h : row.IsSound excluded) : ∃ artifact, transcriptArtifact row = .ok artifact ∧
      artifact.isSome = row.transcriptSha256.isSome := by
  have hpath := h.transcript
  unfold transcriptArtifact
  cases hrelative : row.transcriptRelativePath <;> cases hdigest : row.transcriptSha256
  · exact ⟨none, rfl, rfl⟩
  · rw [hrelative, hdigest] at hpath
    exact absurd hpath Bool.false_ne_true
  · rw [hrelative, hdigest] at hpath
    exact absurd hpath.symm Bool.false_ne_true
  · exact ⟨some _, rfl, rfl⟩

/-! ## Keys -/

/-- A key that ends in a number is not that of a meeting's handle. -/
theorem append_toString_ne (text meetingId : String) (n : Nat) :
    text ++ toString n ≠ meetingId ++ ":o" := by
  intro h
  have hchars := congrArg String.toList h
  rw [String.toList_append, String.toList_append, Nat.toString_eq_repr,
    Nat.repr_eq_ofList_toDigits, String.toList_ofList] at hchars
  have hdigits : Nat.toDigits 10 n ≠ [] := Nat.toDigits_ne_nil
  have hlast := congrArg List.getLast? hchars
  rw [List.getLast?_append_of_ne_nil _ hdigits, List.getLast?_append_of_ne_nil _ (by decide),
    List.getLast?_eq_some_getLast hdigits] at hlast
  have hdigit := Nat.isDigit_of_mem_toDigits (by decide) (by decide) (getLast_mem hdigits)
  rw [Option.some.inj hlast] at hdigit
  exact absurd hdigit (by decide)

/-- Only the handle of a meeting has its key. -/
theorem hitKey_eq_open {hit : SealedHit} {meetingId : String} (h : hitKey hit = meetingId ++ ":o") :
    ∃ authority, hit = .meeting authority none ∧ authority.meetingId = meetingId := by
  cases hit with
  | claim | transcript | withheld => exact absurd h (append_toString_ne _ _ _)
  | meeting authority query =>
    cases query with
    | none => exact ⟨authority, rfl, String.append_left_inj _ |>.mp h⟩
    | some =>
      have hlast := congrArg List.getLast? (congrArg String.toList h)
      simp only [hitKey, String.toList_append] at hlast
      rw [List.getLast?_append_of_ne_nil _ (by decide),
        List.getLast?_append_of_ne_nil _ (by decide)] at hlast
      exact absurd hlast (by decide)

/-! ## Stores -/

namespace HeldProjection

variable {p : HeldProjection} {store : Retained}

theorem row?_eq_some {meetingId : String} {row : LibraryRow} (h : p.row? meetingId = some row) :
    row ∈ p.rows ∧ row.meetingId = meetingId := by
  unfold row? at h
  have hid := List.find?_some h
  exact ⟨mem_of_find?_eq_some h, of_decide_eq_true hid⟩

theorem storeKey_inj {key other : String} : p.storeKey key = p.storeKey other ↔ key = other :=
  String.append_right_inj _

variable (p) in
/-- What `meeting_handle` returns for a meeting that is listed. -/
def openHandle (meetingId : String) : LibraryHit := ⟨p.snapshotId, p.storeKey (meetingId ++ ":o")⟩

theorem meetingHandle_of_row {meetingId : String} {row : LibraryRow}
    (h : p.row? meetingId = some row) : p.meetingHandle store meetingId =
      (.ok (p.openHandle meetingId), p.retain store (.meeting (p.authority row) none)) := by
  unfold meetingHandle
  rw [h]
  dsimp only
  unfold libraryHit hitKey openHandle
  dsimp only [authority]
  rw [(row?_eq_some h).2]

theorem meetingHandle_of_none {meetingId : String} (h : p.row? meetingId = none) :
    p.meetingHandle store meetingId = (.error .invalidRequest, store) := by
  unfold meetingHandle
  rw [h]

variable (p) in
/-- Every hit lies under its key, and the handle of a meeting has the authority of its row. -/
structure Filed (store : Retained) : Prop where
  key : ∀ key hit, store key = some hit → key = p.storeKey (hitKey hit)
  row : ∀ key authority, store key = some (.meeting authority none) →
    ∃ row, p.row? authority.meetingId = some row ∧ authority = p.authority row

theorem Filed.empty : p.Filed fun _ => none where
  key := fun _ _ h => absurd h (by simp)
  row := fun _ _ h => absurd h (by simp)

theorem Filed.retain (h : p.Filed store) {hit : SealedHit}
    (hrow : ∀ authority, hit = .meeting authority none →
      ∃ row, p.row? authority.meetingId = some row ∧ authority = p.authority row) :
    p.Filed (p.retain store hit) := by
  constructor
  · intro key found hfound
    by_cases hkey : key = p.storeKey (hitKey hit)
    · rw [hkey, HeldProjection.retain, Function.update_self] at hfound
      rw [hkey, Option.some.inj hfound]
    · rw [HeldProjection.retain, Function.update_of_ne hkey] at hfound
      exact h.key key found hfound
  · intro key authority hfound
    by_cases hkey : key = p.storeKey (hitKey hit)
    · rw [hkey, HeldProjection.retain, Function.update_self] at hfound
      exact hrow authority (Option.some.inj hfound)
    · rw [HeldProjection.retain, Function.update_of_ne hkey] at hfound
      exact h.row key authority hfound

theorem Filed.retain_open (h : p.Filed store) {meetingId : String} {row : LibraryRow}
    (hrow : p.row? meetingId = some row) :
    p.Filed (p.retain store (.meeting (p.authority row) none)) := by
  refine h.retain fun authority heq => ⟨row, ?_, ?_⟩
  · cases heq
    rw [← hrow]
    exact congrArg p.row? (row?_eq_some hrow).2
  · cases heq
    rfl

/-- A meeting's handle takes no hit from the store: under its key there is nothing
else. -/
theorem Filed.retain_open_keeps (h : p.Filed store) {meetingId : String} {row : LibraryRow}
    (hrow : p.row? meetingId = some row) {key : String} {hit : SealedHit}
    (hfound : store key = some hit) :
    p.retain store (.meeting (p.authority row) none) key = some hit := by
  by_cases hkey : key = p.storeKey (hitKey (.meeting (p.authority row) none))
  · have hown := h.key key hit hfound
    rw [hkey, storeKey_inj] at hown
    obtain ⟨authority, rfl, hid⟩ := hitKey_eq_open hown.symm
    obtain ⟨other, hother, rfl⟩ := h.row key authority hfound
    have hmeeting : (p.authority other).meetingId = meetingId := hid.trans (row?_eq_some hrow).2
    rw [hmeeting, hrow] at hother
    cases hother
    rw [hkey, HeldProjection.retain, Function.update_self]
  · rw [HeldProjection.retain, Function.update_of_ne hkey]
    exact hfound

section Unicode

variable [Unicode] {store : Retained} {row : LibraryRow} {opened : OpenedLibraryHit}

theorem Filed.retainClaims {claims : List StoredClaim} :
    ∀ {store : Retained}, p.Filed store → p.Filed (p.retainClaims row claims store).2 := by
  induction claims with
  | nil => exact fun h => h
  | cons claim rest ih =>
    intro store h
    unfold HeldProjection.retainClaims
    split
    · exact h
    · exact ih (h.retain fun _ heq => by cases heq)

theorem Filed.noteClaims (h : p.Filed store) (meetingId : String) :
    p.Filed (p.noteClaims store meetingId).2 := by
  unfold HeldProjection.noteClaims
  split
  · exact h
  · exact Filed.retainClaims Filed.empty

/-- The reading of a note leaves the hits of its meeting, and none of them is the meeting's own. -/
theorem hits_noteClaims {meetingId : String} (hrow : p.row? meetingId = some row) {key : String}
    {hit : SealedHit} (h : (p.noteClaims store meetingId).2 key = some hit) :
    hitMeetingId hit = meetingId ∧ ∀ authority, hit ≠ .meeting authority none := by
  have hclaims : ∀ {claims : List StoredClaim} {store : Retained},
      (∀ key hit, store key = some hit →
        hitMeetingId hit = meetingId ∧ ∀ authority, hit ≠ .meeting authority none) →
      ∀ key hit, (p.retainClaims row claims store).2 key = some hit →
        hitMeetingId hit = meetingId ∧ ∀ authority, hit ≠ .meeting authority none := by
    intro claims
    induction claims with
    | nil => exact fun hstore => hstore
    | cons claim rest ih =>
      intro store hstore
      unfold HeldProjection.retainClaims
      split
      · exact hstore
      · apply ih
        intro key hit hfound
        unfold HeldProjection.retain at hfound
        by_cases hkey : key = p.storeKey (hitKey (.claim (p.authority row) claim ‹_›))
        · rw [hkey, Function.update_self] at hfound
          cases hfound
          exact ⟨(row?_eq_some hrow).2, fun authority heq => by cases heq⟩
        · rw [Function.update_of_ne hkey] at hfound
          exact hstore key hit hfound
  unfold HeldProjection.noteClaims at h
  rw [hrow] at h
  exact hclaims (fun _ _ hnone => by cases hnone) key hit h

/-- A search finds claims, passages and titles. -/
theorem not_open_of_mem_matches {query : String} {hits : List SealedHit}
    (h : p.matches query = .ok hits) : ∀ hit ∈ hits, ∀ authority, hit ≠ .meeting authority none := by
  unfold «matches» at h
  rw [bind_eq_ok] at h
  obtain ⟨normalized, -, hhits⟩ := h
  cases hhits
  intro hit hhit authority heq
  have hmem := mem_mergeSort.mp ((destutter_sublist _ _).subset hhit)
  obtain ⟨row, -, hmem⟩ := mem_flatMap.mp hmem
  unfold rowMatches at hmem
  rw [heq, mem_append, mem_append] at hmem
  rcases hmem with (hclaim | hturn) | hmeeting
  · obtain ⟨_, -, hclaim⟩ := mem_map.mp hclaim
    cases hclaim
  · obtain ⟨turn, -, hturn⟩ := mem_flatMap.mp hturn
    obtain ⟨span, -, hturn⟩ := mem_map.mp hturn
    split at hturn <;> cases hturn
  · split at hmeeting
    · cases mem_singleton.mp hmeeting
    · cases hmeeting

omit [Unicode] in
theorem Filed.seal {hits : List SealedHit} (h : ∀ hit ∈ hits, ∀ authority, hit ≠ .meeting authority none) :
    p.Filed (p.seal hits).2 := by
  have hfold : ∀ {hits : List SealedHit} {store : Retained}, p.Filed store →
      (∀ hit ∈ hits, ∀ authority, hit ≠ .meeting authority none) →
      p.Filed (hits.foldl p.retain store) := by
    intro hits
    induction hits with
    | nil => exact fun hstore _ => hstore
    | cons hit rest ih =>
      intro store hstore hnone
      exact ih (hstore.retain fun authority heq => absurd heq (hnone hit mem_cons_self authority))
        fun other hother => hnone other (mem_cons_of_mem _ hother)
  exact hfold Filed.empty h

theorem Filed.searchFilteredExcluding (h : p.Filed store) (query : String) (filter : LibraryFilter)
    (excluded : String → Bool) :
    p.Filed (p.searchFilteredExcluding store query filter excluded).2 := by
  unfold HeldProjection.searchFilteredExcluding
  split
  · exact h
  · rename_i hits hhits
    refine Filed.seal fun hit hhit => not_open_of_mem_matches hhits hit ?_
    have hmem := mem_of_mem_take hhit
    split at hmem
    · exact mem_of_mem_filter hmem
    · exact mem_of_mem_filter (mem_of_mem_filter hmem)

/-! ## What opens -/

theorem openSnapshot_eq_ok {handle : LibraryHit} :
    p.openSnapshot store handle = .ok opened ↔ handle.projectionId = p.snapshotId ∧
      ∃ hit, store handle.key = some hit ∧ openSealed p hit = .ok opened := by
  unfold openSnapshot openInner
  rw [check_bind_eq_ok, refuseIf_eq_ok, not_not]
  simp only [bind_eq_ok, orRefuse_eq_ok, Option.getD_none, mapError_eq_ok, Except.ok.injEq,
    exists_eq_left']

theorem openSealed_meetingId {hit : SealedHit} (h : openSealed p hit = .ok opened) :
    opened.meetingId = hitMeetingId hit := by
  unfold openSealed at h
  simp only [bind_eq_ok, orRefuse_eq_ok] at h
  obtain ⟨row, hrow, _, -, h⟩ := h
  have hid := (row?_eq_some hrow).2
  cases hit with
  | claim =>
    unfold openClaim at h
    simp only [bind_eq_ok] at h
    obtain ⟨_, -, _, -, _, -, _, -, _, -, h⟩ := h
    cases h
    exact hid
  | transcript =>
    unfold openTranscript at h
    simp only [bind_eq_ok] at h
    obtain ⟨_, -, _, -, _, -, _, -, _, -, _, -, h⟩ := h
    cases h
    exact hid
  | withheld =>
    unfold openWithheld at h
    simp only [bind_eq_ok] at h
    obtain ⟨_, -, _, -, _, -, h⟩ := h
    cases h
    exact hid
  | meeting =>
    unfold openMeeting at h
    simp only [bind_eq_ok] at h
    obtain ⟨_, -, _, -, h⟩ := h
    cases h
    exact hid

/-- The handle of a meeting opens for no other. -/
theorem opened_of_openHandle (h : p.Filed store) {meetingId : String}
    (hopened : p.openSnapshot store (p.openHandle meetingId) = .ok opened) :
    ∃ title folder artifact, opened = .meeting meetingId title folder artifact := by
  obtain ⟨-, hit, hfound, hopened⟩ := openSnapshot_eq_ok.mp hopened
  have hkey := h.key _ _ hfound
  unfold openHandle at hkey
  rw [storeKey_inj] at hkey
  obtain ⟨authority, rfl, hid⟩ := hitKey_eq_open hkey.symm
  have hmeeting := openSealed_meetingId hopened
  unfold openSealed at hopened
  simp only [bind_eq_ok, orRefuse_eq_ok] at hopened
  obtain ⟨row, -, _, -, hopened⟩ := hopened
  unfold openMeeting at hopened
  simp only [bind_eq_ok] at hopened
  obtain ⟨_, -, artifact, -, hopened⟩ := hopened
  cases hopened
  refine ⟨row.title, row.folder, artifact, ?_⟩
  rw [show row.meetingId = meetingId from hmeeting.trans hid]

/-- The handle of a meeting opens while it is in the store. -/
theorem openSnapshot_open {excluded : Finset String} {meetingId : String}
    (hrow : p.row? meetingId = some row) (hsound : row.IsSound excluded)
    (hstore : store (p.openHandle meetingId).key = some (.meeting (p.authority row) none)) :
    ∃ artifact, artifact.isSome = row.transcriptSha256.isSome ∧
      p.openSnapshot store (p.openHandle meetingId) =
        .ok (.meeting meetingId row.title row.folder artifact) := by
  obtain ⟨artifact, hartifact, hsome⟩ := hsound.exists_artifact
  refine ⟨artifact, hsome, openSnapshot_eq_ok.mpr ⟨rfl, _, hstore, ?_⟩⟩
  have hid := (row?_eq_some hrow).2
  have hfound : p.row? (hitMeetingId (.meeting (p.authority row) none)) = some row := by
    rw [← hrow]
    exact congrArg p.row? hid
  have hauthority : p.authority row = hitAuthority (.meeting (p.authority row) none) := rfl
  unfold openSealed
  rw [hfound, orRefuse_some, ok_bind, refuseIf_of_not (not_not_intro hauthority), ok_bind]
  dsimp only
  unfold openMeeting
  rw [Option.any_none, refuseIf_of_not Bool.false_ne_true, ok_bind, hartifact, ok_bind, ← hid]
  rfl

end Unicode

end HeldProjection

end LibraryRead

end YawnApp.SessionCore
