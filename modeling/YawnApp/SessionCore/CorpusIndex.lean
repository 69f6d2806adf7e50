import YawnApp.Foundation.Delimited
import YawnApp.SessionCore.CorpusWindow
import YawnApp.SessionCore.LibraryRead

set_option autoImplicit false

/-!
# The corpus index (`corpus_index.rs`)

The index is a database with a table of meetings, one of their turns, one of
their windows, one of the segments of windows, and one of vectors.  The first
four are derived from a library projection and are replaced together; the
vectors come from an embedder and stay as long as there is a window that they
are about.  The index remembers a digest of what it was derived from, so that an
unchanged library costs no write.

SQLite is modelled by what the code uses of it: a table is a list of rows in
which no key occurs twice, an integer has 63 bits and a sign, and a transaction
takes place at its commit or not at all.
-/

namespace YawnApp.SessionCore

open YawnApp.Foundation LibraryRead

namespace CorpusIndex

inductive CorpusIndexError where
  | underivableRow
  | vectorRejected
  | database
deriving DecidableEq, Repr

/-! ## What is indexed -/

/-- `DerivedTurn`. -/
abbrev DerivedTurn : Type := StoredTurn

/-- `DerivedRow`: what of a row of the library may be stored. -/
structure DerivedRow where
  meetingId : String
  createdAtEpochSeconds : UInt64
  lifecycle : MeetingLifecycle
  meetingRecordSha256 : String
  attemptSha256 : String
  transcriptSha256 : Option String
  transcriptRelativePath : Option String
  noteJsonSha256 : Option String
  noteMarkdownSha256 : Option String
  title : Option String
  folder : Option String
  turns : List DerivedTurn
deriving DecidableEq

/-- `LibraryRow::derived`. -/
def derived (row : LibraryRow) : DerivedRow where
  meetingId := row.meetingId
  createdAtEpochSeconds := row.createdAtEpochSeconds
  lifecycle := row.lifecycle
  meetingRecordSha256 := row.meetingRecordSha256
  attemptSha256 := row.attemptSha256
  transcriptSha256 := row.transcriptSha256
  transcriptRelativePath := row.transcriptRelativePath
  noteJsonSha256 := row.noteJsonSha256
  noteMarkdownSha256 := row.noteMarkdownSha256
  title := row.title
  folder := row.folder
  turns := row.turns

/-- The rows of a projection that a call with these exclusions looks at. -/
def indexedRows (projection : LibraryProjection) (excluded : Finset String) : List DerivedRow :=
  (projection.rows.map derived).filter fun row => row.meetingId ∉ excluded

/-! ## Tables -/

structure MeetingRow where
  meetingId : String
  createdAtEpochSeconds : Nat
  lifecycle : String
  meetingRecordSha256 : String
  attemptSha256 : String
  transcriptSha256 : Option String
  transcriptRelativePath : Option String
  noteJsonSha256 : Option String
  noteMarkdownSha256 : Option String
  title : Option String
  folder : Option String
deriving DecidableEq

structure TurnRow where
  meetingId : String
  turnIndex : Nat
  visibleIndex : Option Nat
  gated : Bool
  text : String
deriving DecidableEq

structure WindowRow where
  meetingId : String
  windowIndex : Nat
  wordCount : Nat
  textSha256 : String
deriving DecidableEq

structure SegmentRow where
  meetingId : String
  windowIndex : Nat
  segmentIndex : Nat
  sourceTurnIndex : Nat
  originalScalarStart : Nat
  originalScalarEnd : Nat
deriving DecidableEq

/-- The values of a vector are the bits of its numbers. -/
structure VectorRow where
  meetingId : String
  windowIndex : Nat
  embedder : String
  textSha256 : String
  values : List UInt32
deriving DecidableEq

/-- The tables that are derived from a projection. -/
structure Tables where
  meeting : List MeetingRow
  turn : List TurnRow
  window : List WindowRow
  segment : List SegmentRow
deriving DecidableEq

def Tables.empty : Tables := ⟨[], [], [], []⟩

/-- The database. -/
structure Index where
  tables : Tables
  vectors : List VectorRow
  /-- `index_identity.corpus_digest`. -/
  corpusDigest : Option String

/-- The database that `open` makes. -/
def Index.fresh : Index := ⟨Tables.empty, [], none⟩

/-- An integer parameter of a statement. -/
def sqlInteger (n : Nat) : Except CorpusIndexError Nat :=
  if n < 2 ^ 63 then .ok n else .error .database

/-- `INSERT` into a table with a primary key. -/
def insertRow {κ ρ : Type} [DecidableEq κ] (key : ρ → κ) (row : ρ) (table : List ρ) :
    Except CorpusIndexError (List ρ) :=
  if key row ∈ table.map key then .error .database else .ok (table ++ [row])

/-! ## Replacing the tables -/

structure SyncOutcome where
  meetings : Nat
  turns : Nat
  windows : Nat
deriving DecidableEq, Repr

/-- The variables of the loop of `replace_from_projection_excluding`. -/
structure Filling where
  tables : Tables
  outcome : SyncOutcome
deriving DecidableEq

def insertTurn (meetingId : String) (filling : Filling) (turn : DerivedTurn) :
    Except CorpusIndexError Filling := do
  let visibleIndex ← turn.visibleIndex.mapM sqlInteger
  let table ← insertRow (fun row => (row.meetingId, row.turnIndex))
    ⟨meetingId, turn.index.toNat, visibleIndex, turn.gated, turn.text⟩ filling.tables.turn
  return {
    tables := { filling.tables with turn := table }
    outcome := { filling.outcome with turns := filling.outcome.turns + 1 } }

def insertSegment (meetingId : String) (windowIndex : Nat) (tables : Tables)
    (entry : CorpusWindow.WindowSegment × Nat) : Except CorpusIndexError Tables := do
  let sourceTurnIndex ← sqlInteger entry.1.sourceTurnIndex
  let start ← sqlInteger entry.1.originalScalarStart
  let stop ← sqlInteger entry.1.originalScalarEnd
  let position ← sqlInteger entry.2
  let table ← insertRow (fun row => (row.meetingId, row.windowIndex, row.segmentIndex))
    ⟨meetingId, windowIndex, position, sourceTurnIndex, start, stop⟩ tables.segment
  return { tables with segment := table }

/-- The text of a turn by its index. -/
def turnText (turns : List DerivedTurn) (index : Nat) : Option String :=
  (turns.find? fun turn => turn.index.toNat = index).map StoredTurn.text

variable [TextDigest]

def insertWindow (row : DerivedRow) (filling : Filling) (window : CorpusWindow.Window) :
    Except CorpusIndexError Filling := do
  let text ← orRefuse (CorpusWindow.windowText window (turnText row.turns)) .underivableRow
  let windowIndex ← sqlInteger window.windowIndex
  let wordCount ← sqlInteger window.wordCount
  let table ← insertRow (fun row => (row.meetingId, row.windowIndex))
    ⟨row.meetingId, windowIndex, wordCount, CorpusWindow.windowDigest text⟩ filling.tables.window
  let tables ← window.segments.zipIdx.foldlM (insertSegment row.meetingId windowIndex)
    { filling.tables with window := table }
  return { tables, outcome := { filling.outcome with windows := filling.outcome.windows + 1 } }

/-- The round of the loop for one row of the projection. -/
def insertMeeting (filling : Filling) (row : DerivedRow) : Except CorpusIndexError Filling := do
  let createdAt ← sqlInteger row.createdAtEpochSeconds.toNat
  let table ← insertRow MeetingRow.meetingId {
    meetingId := row.meetingId
    createdAtEpochSeconds := createdAt
    lifecycle := row.lifecycle.name
    meetingRecordSha256 := row.meetingRecordSha256
    attemptSha256 := row.attemptSha256
    transcriptSha256 := row.transcriptSha256
    transcriptRelativePath := row.transcriptRelativePath
    noteJsonSha256 := row.noteJsonSha256
    noteMarkdownSha256 := row.noteMarkdownSha256
    title := row.title
    folder := row.folder } filling.tables.meeting
  let filling : Filling := {
    tables := { filling.tables with meeting := table }
    outcome := { filling.outcome with meetings := filling.outcome.meetings + 1 } }
  let filling ← row.turns.foldlM (insertTurn row.meetingId) filling
  (CorpusWindow.windows (row.turns.map fun turn =>
    ⟨turn.index.toNat, turn.text, turn.gated⟩)).foldlM (insertWindow row) filling

/-- What the rows fill the emptied tables with. -/
def fill (rows : List DerivedRow) : Except CorpusIndexError Filling :=
  rows.foldlM insertMeeting ⟨Tables.empty, ⟨0, 0, 0⟩⟩

/-- Whether a vector is about one of the windows. -/
def VectorRow.bound (windows : List WindowRow) (vector : VectorRow) : Bool :=
  windows.any fun window => window.meetingId == vector.meetingId &&
    window.windowIndex == vector.windowIndex && window.textSha256 == vector.textSha256

/-- `replace_from_projection_excluding`: one transaction. -/
def replaceFromProjectionExcluding (projection : LibraryProjection) (excluded : Finset String) :
    Durable Index CorpusIndexError SyncOutcome := do
  let filling ← Durable.lift (fill (indexedRows projection excluded))
  Durable.write fun index => {
    tables := filling.tables
    vectors := index.vectors.filter (VectorRow.bound filling.tables.window)
    corpusDigest := none }
  return filling.outcome

/-! ## The digest -/

def corpusIndexSchema : String := "corpus-index/2"

/-- What the digest sees of a row. -/
def digestParts (row : DerivedRow) : List (Option String) :=
  [some row.meetingId, some row.meetingRecordSha256, some row.attemptSha256, row.transcriptSha256,
    row.noteJsonSha256, row.noteMarkdownSha256, row.title, row.folder]

/-- The unit separator, the record separator and the text for a missing part. -/
def unitSeparator : Char := Char.ofNat 0x1F

def recordSeparator : Char := Char.ofNat 0x1E

def missingPart : String := String.ofList [Char.ofNat 0]

/-- The text that `corpus_digest` hashes. -/
def corpusText (rows : List DerivedRow) : String :=
  String.ofList (corpusIndexSchema.toList ++ terminated recordSeparator (rows.map fun row =>
    marked unitSeparator ((digestParts row).map fun part => (part.getD missingPart).toList)))

/-- `corpus_digest`. -/
def corpusDigest (projection : LibraryProjection) (excluded : Finset String) : String :=
  TextDigest.sha256 (corpusText (indexedRows projection excluded))

/-- `sync_if_changed_excluding`. -/
def syncIfChangedExcluding (projection : LibraryProjection) (excluded : Finset String) :
    Durable Index CorpusIndexError (Option SyncOutcome) := do
  let stored ← Durable.inspect fun index => .ok index.corpusDigest
  if stored = some (corpusDigest projection excluded) then return none
  else do
    let outcome ← replaceFromProjectionExcluding projection excluded
    Durable.write fun index => { index with corpusDigest := some (corpusDigest projection excluded) }
    return some outcome

/-! ## Vectors -/

structure EmbedderIdentity where
  model : String
  revision : String
  tokenizerSha256 : String
  weightsSha256 : String
  pooling : String
  maxSequenceTokens : UInt32
  activation : String
  dimension : UInt32

/-- `EmbedderIdentity::canonical`. -/
def EmbedderIdentity.canonical (identity : EmbedderIdentity) : String :=
  identity.model ++ "@" ++ identity.revision ++ " tokenizer=" ++ identity.tokenizerSha256 ++
    " weights=" ++ identity.weightsSha256 ++ " pooling=" ++ identity.pooling ++ " max_tokens=" ++
    toString identity.maxSequenceTokens.toNat ++ " activation=" ++ identity.activation ++ " dim=" ++
    toString identity.dimension.toNat

structure WindowVector where
  meetingId : String
  windowIndex : Nat
  textSha256 : String
  values : List UInt32

/-- The row of a vector that an embedder offers. -/
def WindowVector.row (vector : WindowVector) (embedder : String) : VectorRow :=
  ⟨vector.meetingId, vector.windowIndex, embedder, vector.textSha256, vector.values⟩

/-- The primary key of the table of vectors. -/
def VectorRow.key (row : VectorRow) : String × Nat × String :=
  (row.meetingId, row.windowIndex, row.embedder)

/-- One vector: `INSERT OR REPLACE`, if there is a window for it. -/
def storeVector (identity : EmbedderIdentity) (windows : List WindowRow) (vectors : List VectorRow)
    (vector : WindowVector) : Except CorpusIndexError (List VectorRow) := do
  refuseIf (vector.values.length ≠ identity.dimension.toNat) .vectorRejected
  let _ ← sqlInteger vector.windowIndex
  let row := vector.row identity.canonical
  refuseIf (¬ VectorRow.bound windows row) .vectorRejected
  return vectors.filter (fun other => other.key ≠ row.key) ++ [row]

/-- `store_window_vectors`: all of them or none. -/
def storeWindowVectors (identity : EmbedderIdentity) (offered : List WindowVector) :
    Durable Index CorpusIndexError Nat := do
  let vectors ← Durable.inspect fun index =>
    offered.foldlM (storeVector identity index.tables.window) index.vectors
  Durable.write fun index => { index with vectors }
  return offered.length

end CorpusIndex

end YawnApp.SessionCore
