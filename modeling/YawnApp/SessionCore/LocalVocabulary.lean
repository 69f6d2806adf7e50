import YawnApp.Foundation.JsonSize
import YawnApp.Foundation.Pieces
import YawnApp.SessionCore.Operations

set_option autoImplicit false

/-!
# The local vocabulary (`local_vocabulary.rs`)

The operator's list of exact replacements for names and jargon, how it is read
and checked, and the two projections derived from it: `project` rewrites one
text, `project_turns` says at which scalars of which turn it would do so.  The
first counts bytes and the second Unicode scalars.

A Rust slice off a character boundary panics and a loop may fail to end.
`none` stands for either, so that an answer `some _` is a call that returned.
-/

namespace YawnApp.SessionCore

open YawnApp.Foundation

/-! ## Documents -/

def maxVocabularyDocumentBytes : Nat := 256 * 1024

def maxVocabularyEntries : Nat := 256

def maxEntryTextBytes : Nat := 512

def maxEntryTextScalars : Nat := 256

def maxProjectionBytes : Nat := 1024 * 1024

def maxRangeReplacements : Nat := 64

inductive LocalVocabularyError where
  | invalidPrivateStorage
  | malformed (detail : String)
  | invalidEntry (detail : String)
  | notFound
  | duplicateSourcePhrase
  | tooManyEntries
  | textTooLarge
  | documentTooLarge
  | tooManyRangeReplacements
deriving DecidableEq, Repr

inductive VocabularySchema where
  | v1
deriving DecidableEq, Repr, Inhabited

structure LocalVocabularyEntryWire where
  id : Uuid
  sourcePhrase : String
  preferredReplacement : String
  enabled : Bool
  createdOrder : UInt64
  updatedOrder : UInt64
deriving DecidableEq

structure VocabularyDocument where
  schema : VocabularySchema
  entries : List LocalVocabularyEntryWire
deriving DecidableEq

instance : Serde VocabularySchema :=
  Serde.ofNames (fun | .v1 => "local-vocabulary/1") [.v1] (by intro a; cases a; rfl)

instance : Serde LocalVocabularyEntryWire where
  toValue e := .object
    [("id", Serde.toValue e.id), ("source_phrase", Serde.toValue e.sourcePhrase),
      ("preferred_replacement", Serde.toValue e.preferredReplacement),
      ("enabled", Serde.toValue e.enabled), ("created_order", Serde.toValue e.createdOrder),
      ("updated_order", Serde.toValue e.updatedOrder)]
  fromValue v := do
    let fs ← closedFields ["id", "source_phrase", "preferred_replacement", "enabled",
      "created_order", "updated_order"] v
    return {
      id := ← requiredField fs "id"
      sourcePhrase := ← requiredField fs "source_phrase"
      preferredReplacement := ← requiredField fs "preferred_replacement"
      enabled := ← requiredField fs "enabled"
      createdOrder := ← requiredField fs "created_order"
      updatedOrder := ← requiredField fs "updated_order" }
  fromValue_toValue e := by
    refine (closedFields_bind rfl).trans ?_
    repeat refine (requiredField_bind rfl).trans ?_
    rfl
  plain_toValue e := Value.plain_object (by simp [Value.plainFields]) rfl
  toValue_ne_null e := by simp

instance : Serde VocabularyDocument where
  toValue d := .object [("schema", Serde.toValue d.schema), ("entries", Serde.toValue d.entries)]
  fromValue v := do
    let fs ← closedFields ["schema", "entries"] v
    return {
      schema := ← requiredField fs "schema"
      entries := ← requiredField fs "entries" }
  fromValue_toValue d := by
    refine (closedFields_bind rfl).trans ?_
    repeat refine (requiredField_bind rfl).trans ?_
    rfl
  plain_toValue d := Value.plain_object (by simp [Value.plainFields]) rfl
  toValue_ne_null d := by simp

/-! ## Checks -/

def validateText (text : String) : Except LocalVocabularyError Unit := do
  refuseIf (text = "" ∨ text.toList.all isWhitespace) (.invalidEntry "text is empty")
  refuseIf (text.utf8ByteSize > maxEntryTextBytes ∨ text.toList.length > maxEntryTextScalars ∨
      text.toList.any isControl)
    (.invalidEntry "text is out of bounds")

/-- The loop of `validate_document`, with the identifiers and the source
phrases seen so far. -/
def validateEntries (ids : List Uuid) (sourcePhrases : List String) :
    List LocalVocabularyEntryWire → Except LocalVocabularyError Unit
  | [] => .ok ()
  | entry :: rest => do
    validateText entry.sourcePhrase
    validateText entry.preferredReplacement
    refuseIf (entry.sourcePhrase = entry.preferredReplacement)
      (.invalidEntry "source and replacement must differ")
    refuseIf (entry.updatedOrder < entry.createdOrder) (.malformed "ordering")
    refuseIf (entry.id ∈ ids) (.malformed "duplicate id")
    refuseIf (entry.sourcePhrase ∈ sourcePhrases) .duplicateSourcePhrase
    validateEntries (entry.id :: ids) (entry.sourcePhrase :: sourcePhrases) rest

/-- `left.created_order.cmp(&right.created_order).then_with(|| left.id.cmp(&right.id))`. -/
def compareCreated (left right : LocalVocabularyEntryWire) : Ordering :=
  (compare left.createdOrder right.createdOrder).then (compare left.id.text right.id.text)

def validateDocument (entries : List LocalVocabularyEntryWire) :
    Except LocalVocabularyError (List LocalVocabularyEntryWire) := do
  refuseIf (entries.length > maxVocabularyEntries) .tooManyEntries
  validateEntries [] [] entries
  return entries.mergeSort fun left right => (compareCreated left right).isLE

/-! ## The store -/

/-- The storage root, the one vocabulary document below it and its temporary
files. -/
inductive VocabularyPlace where
  | root
  | file
  | temporary (nonce : Uuid)
deriving DecidableEq

section Store

variable {B : Type} [Platform B]

/-- `load`: no document is an empty vocabulary. -/
def loadVocabulary (v : Volume VocabularyPlace B) :
    Except LocalVocabularyError (List LocalVocabularyEntryWire) := do
  (requirePrivateDirectory v .root).mapError fun _ => .invalidPrivateStorage
  match v.node .file with
  | none => return []
  | some (.file mode bytes) =>
    refuseIf (permissions mode ≠ 0o600) .invalidPrivateStorage
    refuseIf (ByteString.size bytes > maxVocabularyDocumentBytes) .documentTooLarge
    let document : VocabularyDocument ← orRefuse (fromSlice bytes) (.malformed "document")
    validateDocument document.entries
  | some _ => .error .invalidPrivateStorage

end Store

/-! ## Slices -/

/-- `text.len()`. -/
abbrev byteLength (text : List Char) : Nat := width Char.utf8Size text

/-- `text.split_at_checked(n)`: there is no such place inside a character. -/
def splitAtByte : List Char → Nat → Option (List Char × List Char)
  | text, 0 => some ([], text)
  | [], _ + 1 => none
  | c :: rest, n + 1 =>
    if c.utf8Size ≤ n + 1 then
      (splitAtByte rest (n + 1 - c.utf8Size)).map fun s => (c :: s.1, s.2)
    else none

/-- `&text[start..]`. -/
def sliceFrom (text : List Char) (start : Nat) : Option (List Char) :=
  (splitAtByte text start).map Prod.snd

/-- `&text[..stop]`. -/
def sliceTo (text : List Char) (stop : Nat) : Option (List Char) :=
  (splitAtByte text stop).map Prod.fst

/-- `&text[start..stop]`. -/
def slice (text : List Char) (start stop : Nat) : Option (List Char) :=
  (sliceFrom text start).bind fun rest => sliceTo rest (stop - start)

/-! ## The projection of one text -/

structure VocabularyApplication where
  entryId : Uuid
  /-- The byte range in the original text. -/
  start : Nat
  stop : Nat
deriving DecidableEq

structure VocabularyProjection where
  text : String
  applied : List VocabularyApplication
deriving DecidableEq

/-- `Iterator::max_by`: of equal items the last. -/
def maxBy {α : Type} (cmp : α → α → Ordering) : List α → Option α
  | [] => none
  | a :: rest => some (rest.foldl (fun best b => if cmp best b = .gt then best else b) a)

/-- The longest source first, then the order of creation. -/
def comparePreference (left right : LocalVocabularyEntryWire) : Ordering :=
  (compare left.sourcePhrase.toList.length right.sourcePhrase.toList.length).then
    ((compare right.createdOrder left.createdOrder).then (compare right.id.text left.id.text))

/-- The entry to apply where `rest` begins. -/
def bestEntry (rest : List Char) (entries : List LocalVocabularyEntryWire) :
    Option LocalVocabularyEntryWire :=
  maxBy comparePreference (entries.filter fun entry => entry.sourcePhrase.toList.isPrefixOf rest)

/-- The loop of `project_with_entries`, for at most `fuel` rounds. -/
def projectLoop (input : List Char) (entries : List LocalVocabularyEntryWire) :
    Nat → Nat → List Char → List VocabularyApplication →
    Option (Except LocalVocabularyError VocabularyProjection)
  | 0, _, _, _ => none
  | fuel + 1, cursor, output, applied =>
    if cursor < byteLength input then
      (sliceFrom input cursor).bind fun rest =>
        match bestEntry rest entries with
        | some entry =>
          if byteLength output + entry.preferredReplacement.utf8ByteSize > maxProjectionBytes then
            some (.error .textTooLarge)
          else
            let stop := cursor + entry.sourcePhrase.utf8ByteSize
            projectLoop input entries fuel stop (output ++ entry.preferredReplacement.toList)
              (applied ++ [⟨entry.id, cursor, stop⟩])
        | none =>
          rest.head?.bind fun character =>
            if byteLength output + character.utf8Size > maxProjectionBytes then
              some (.error .textTooLarge)
            else
              projectLoop input entries fuel (cursor + character.utf8Size) (output ++ [character])
                applied
    else
      some (do
        refuseIf (byteLength output > maxProjectionBytes) .textTooLarge
        return ⟨String.ofList output, applied⟩)

/-- `project_with_entries`.  Every round reads a byte at least. -/
def projectWithEntries (input : String) (entries : List LocalVocabularyEntryWire) :
    Option (Except LocalVocabularyError VocabularyProjection) :=
  if input.utf8ByteSize > maxProjectionBytes then some (.error .textTooLarge)
  else projectLoop input.toList entries (input.utf8ByteSize + 1) 0 [] []

section Project

variable {B : Type} [Platform B]

/-- `load` and the filter of both projections. -/
def enabledEntries (v : Volume VocabularyPlace B) :
    Except LocalVocabularyError (List LocalVocabularyEntryWire) := do
  let entries ← loadVocabulary v
  return entries.filter fun entry => entry.enabled

def project (v : Volume VocabularyPlace B) (input : String) :
    Option (Except LocalVocabularyError VocabularyProjection) :=
  if input.utf8ByteSize > maxProjectionBytes then some (.error .textTooLarge)
  else
    match enabledEntries v with
    | .error e => some (.error e)
    | .ok entries => projectWithEntries input entries

end Project

/-! ## The replacements of the turns -/

/-- `str::as_bytes`. -/
class TextBytes (B : Type) [ByteString B] where
  asBytes : String → B
  size_asBytes : ∀ text, ByteString.size (asBytes text) = text.utf8ByteSize

section Turns

variable {B : Type} [Platform B] [TextBytes B]

/-- `format!("{:x}", Sha256::digest(source.as_bytes()))`. -/
def textSha256 (B : Type) [Platform B] [TextBytes B] (source : List Char) : String :=
  Platform.sha256 (TextBytes.asBytes (String.ofList source) : B)

/-- The inner loop of `project_turns`, over the applications of one turn. -/
def pushApplications (B : Type) [Platform B] [TextBytes B]
    (entries : List LocalVocabularyEntryWire) (turn : Nat) (text : List Char) :
    List VocabularyApplication → List VocabularyRangeReplacement →
    Option (Except LocalVocabularyError (List VocabularyRangeReplacement))
  | [], replacements => some (.ok replacements)
  | application :: rest, replacements =>
    if replacements.length = maxRangeReplacements then some (.error .tooManyRangeReplacements)
    else do
      let source ← slice text application.start application.stop
      let entry ← entries.find? fun entry => entry.id = application.entryId
      let charStart := (← sliceTo text application.start).length
      let charEnd := (← sliceTo text application.stop).length
      pushApplications B entries turn text rest (replacements ++ [{
        turn := UInt32.ofNat turn
        charStart := UInt32.ofNat charStart
        charEnd := UInt32.ofNat charEnd
        sourceSha256 := textSha256 B source
        replacement := entry.preferredReplacement }])

/-- The outer loop of `project_turns`, from the turn of index `turn` on. -/
def projectTurnsFrom (B : Type) [Platform B] [TextBytes B]
    (entries : List LocalVocabularyEntryWire) :
    Nat → List String → List VocabularyRangeReplacement →
    Option (Except LocalVocabularyError (List VocabularyRangeReplacement))
  | _, [], replacements => some (.ok replacements)
  | turn, text :: rest, replacements =>
    (projectWithEntries text entries).bind fun
      | .error e => some (.error e)
      | .ok projection =>
        (pushApplications B entries turn text.toList projection.applied replacements).bind fun
          | .error e => some (.error e)
          | .ok replacements => projectTurnsFrom B entries (turn + 1) rest replacements

def projectTurns (v : Volume VocabularyPlace B) (turns : List String) :
    Option (Except LocalVocabularyError (List VocabularyRangeReplacement)) :=
  if turns.length > UInt32.size - 1 then some (.error .textTooLarge)
  else
    match enabledEntries v with
    | .error e => some (.error e)
    | .ok entries => projectTurnsFrom B entries 0 turns []

end Turns

/-! ## Rendering a turn -/

/-- `PromptOverlay.text` (`transcript.py`): a scalar span of a turn with the
replacements that lie wholly inside it. -/
def promptText (replacements : List VocabularyRangeReplacement) (turn : Nat) (text : List Char)
    (start stop : Nat) : List Char :=
  substitute (text.take stop) start
    (((replacements.filter fun r => r.turn.toNat = turn).filter fun r =>
        ¬ (r.charStart.toNat < start ∨ r.charEnd.toNat > stop)).map fun r =>
      (r.charStart.toNat, r.charEnd.toNat, r.replacement.toList))

end YawnApp.SessionCore
