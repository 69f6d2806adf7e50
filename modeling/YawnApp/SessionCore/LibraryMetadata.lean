import Mathlib.Data.String.Basic
import YawnApp.Foundation.Keyed
import YawnApp.SessionCore.Operations
import YawnApp.SessionCore.Storage

set_option autoImplicit false

/-!
# Library metadata (`library_metadata.rs`)

The folders and the titles of the private library live in one document,
`library/metadata.json`.  A mutation reads the document, compares its revision
with the one the caller expects, edits a draft, parses what it is about to write
with the reader's own code and replaces the file.

Of the file checks of the reader the kind and the mode are modelled; extended
attributes, access lists and descriptors that change under the reader are not.
The digest that a state carries as its private identity is left out.
-/

namespace YawnApp.SessionCore

open YawnApp.Foundation

/-! ## The document -/

def maxMetadataBytes : Nat := 1024 * 1024

structure Folder where
  id : String
  name : String
deriving DecidableEq

structure MeetingMetadata where
  meetingId : String
  title : Option String
  folderId : Option String
deriving DecidableEq

/-- `MetadataWire` and `MetadataDocument`. -/
structure MetadataDocument where
  revision : UInt64
  folders : List Folder
  meetings : List MeetingMetadata
deriving DecidableEq

inductive MetadataState where
  | missing
  | valid (document : MetadataDocument)
  | unavailable
deriving DecidableEq

/-- The visitors of this file take the keys in one order and no other: the
values of an object with exactly these keys. -/
def orderedFields (names : List String) : Value → Option (List Value)
  | .object fields => if fields.map Prod.fst = names then some (fields.map Prod.snd) else none
  | _ => none

/-- A field that has to be there and may be `null`. -/
def nullableValue : Value → Option (Option String)
  | .null => some none
  | v => (Serde.fromValue v).map some

instance : Serde Folder where
  toValue f := .object [("id", Serde.toValue f.id), ("name", Serde.toValue f.name)]
  fromValue v := do
    match ← orderedFields ["id", "name"] v with
    | [id, name] => return { id := ← Serde.fromValue id, name := ← Serde.fromValue name }
    | _ => none
  fromValue_toValue _ := rfl
  plain_toValue f := Value.plain_object (by simp [Value.plainFields]) rfl
  toValue_ne_null f := by simp

instance : Serde MeetingMetadata where
  toValue m := .object [("meeting_id", Serde.toValue m.meetingId), ("title", nullable m.title),
    ("folder_id", nullable m.folderId)]
  fromValue v := do
    match ← orderedFields ["meeting_id", "title", "folder_id"] v with
    | [meetingId, title, folderId] =>
      return {
        meetingId := ← Serde.fromValue meetingId
        title := ← nullableValue title
        folderId := ← nullableValue folderId }
    | _ => none
  fromValue_toValue m := by
    obtain ⟨meetingId, title, folderId⟩ := m
    cases title <;> cases folderId <;> rfl
  plain_toValue m := Value.plain_object (by simp [Value.plainFields]) rfl
  toValue_ne_null m := by simp

instance : Serde MetadataDocument where
  toValue d := .object [("schema", .string "library-metadata/1"),
    ("revision", Serde.toValue d.revision), ("folders", Serde.toValue d.folders),
    ("meetings", Serde.toValue d.meetings)]
  fromValue v := do
    match ← orderedFields ["schema", "revision", "folders", "meetings"] v with
    | [schema, revision, folders, meetings] =>
      let schema : String ← Serde.fromValue schema
      if schema = "library-metadata/1" then
        return {
          revision := ← Serde.fromValue revision
          folders := ← Serde.fromValue folders
          meetings := ← Serde.fromValue meetings }
      else none
    | _ => none
  fromValue_toValue d := by
    obtain ⟨revision, folders, meetings⟩ := d
    change ((Serde.fromValue (Serde.toValue revision)).bind fun r =>
      (Serde.fromValue (Serde.toValue folders)).bind fun f =>
        (Serde.fromValue (Serde.toValue meetings)).bind fun m =>
          some (MetadataDocument.mk r f m)) = _
    rw [Serde.fromValue_toValue, Serde.fromValue_toValue, Serde.fromValue_toValue]
    rfl
  plain_toValue d := Value.plain_object (by simp [Value.plainFields, Value.plain]) rfl
  toValue_ne_null d := by simp

/-! ## Validation -/

/-- NFC, which the source takes from `icu_normalizer`. -/
class ComposingNormalizer where
  /-- `unicode_normalization`. -/
  nfc : String → String

/-- `value.trim_matches(char::is_whitespace)`. -/
def trimMatches (value : String) : String :=
  String.ofList ((value.toList.dropWhile isWhitespace).reverse.dropWhile isWhitespace).reverse

/-- `canonical_uuid`: the canonical text of a random UUID of the RFC variant. -/
def canonicalUuid4 (value : String) : Bool :=
  canonicalUuid value && value.toList[14]? == some '4' &&
    value.toList[19]?.any fun c => c == '8' || c == '9' || c == 'a' || c == 'b'

section Labels

variable [ComposingNormalizer]

def validLabel (value : String) : Bool :=
  value == ComposingNormalizer.nfc value && value == trimMatches value &&
    decide (1 ≤ value.toList.length) && decide (value.toList.length ≤ 120) &&
    !value.toList.any fun c =>
      isControl c || c == '/' || c == '\\' || c.toNat == 0x2028 || c.toNat == 0x2029

def normalizedLabel (value : String) : Option String :=
  let candidate := trimMatches (ComposingNormalizer.nfc value)
  if validLabel candidate then some candidate else none

/-- The loop of `validate` over the folders. -/
def validateFolders : Option String → List Folder → Bool
  | _, [] => true
  | prior, folder :: rest =>
    canonicalUuid4 folder.id && validLabel folder.name &&
      (prior.all fun previous => decide (previous < folder.id)) &&
      validateFolders (some folder.id) rest

/-- The loop of `validate` over the rows. -/
def validateMeetings (folders : List Folder) : Option String → List MeetingMetadata → Bool
  | _, [] => true
  | prior, row :: rest =>
    validOpaqueId row.meetingId &&
      (prior.all fun previous => decide (previous < row.meetingId)) &&
      row.title.all validLabel &&
      (row.folderId.all fun id => folders.any fun folder => folder.id == id) &&
      validateMeetings folders (some row.meetingId) rest

/-- `validate`. -/
def MetadataDocument.validate (wire : MetadataDocument) : Bool :=
  validateFolders none wire.folders && validateMeetings wire.folders none wire.meetings

end Labels

/-! ## Reading -/

/-- The storage root, `library/`, the document and its temporary files. -/
inductive LibraryPlace where
  | root
  | library
  | metadata
  | temporary (nonce : Uuid)
deriving DecidableEq

instance : Location LibraryPlace where
  ancestors
    | .root => []
    | .library => [.root]
    | .metadata => [.library, .root]
    | .temporary _ => [.library, .root]

section Store

variable {B : Type} [Platform B] [ComposingNormalizer]

/-- `serde_json::from_slice::<MetadataWire>` and then `validate`. -/
def parseMetadata (bytes : B) : Option MetadataDocument :=
  (fromSlice bytes).bind fun wire : MetadataDocument => if wire.validate then some wire else none

def readLibraryMetadata (v : Volume LibraryPlace B) : MetadataState :=
  match v.node .library with
  | none => .missing
  | some (.directory mode) =>
    if mode &&& 0o7777 ≠ 0o700 then .unavailable
    else match v.node .metadata with
      | none => .missing
      | some (.file mode bytes) =>
        if mode &&& 0o7777 ≠ 0o600 ∨ ByteString.size bytes > maxMetadataBytes then .unavailable
        else match parseMetadata bytes with
          | some document => .valid document
          | none => .unavailable
      | some _ => .unavailable
  | some _ => .unavailable

/-! ## Writing -/

structure OrganizationOutcome where
  revision : UInt64
  changed : Bool
  folderId : Option String
deriving DecidableEq

inductive OrganizationError where
  | invalidRequest
  | metadataUnavailable
  | revisionConflict (currentRevision : UInt64)
  | internal
deriving DecidableEq, Repr

/-- The mutable working copy one edit sees. -/
structure Draft where
  folders : List Folder
  meetings : List MeetingMetadata
deriving DecidableEq

/-- A row that carries a title or a folder. -/
def MeetingMetadata.carries (row : MeetingMetadata) : Bool := row.title.isSome || row.folderId.isSome

def Draft.prune (draft : Draft) : Draft :=
  { draft with meetings := draft.meetings.filter MeetingMetadata.carries }

/-- `row_mut`, and `insert_row` where there is no row: the row is looked for, and
one is made of `absent` when it is not there. -/
def Draft.upsert (draft : Draft) (meetingId : String) (edit : MeetingMetadata → MeetingMetadata)
    (absent : MeetingMetadata) : Draft :=
  { draft with meetings :=
      match lookupKey MeetingMetadata.meetingId meetingId draft.meetings with
      | some _ => modifyKey MeetingMetadata.meetingId meetingId edit draft.meetings
      | none => insertKey MeetingMetadata.meetingId absent draft.meetings }

/-- Canonical bytes, read back with the reader's own code. -/
def serializeMetadata (document : MetadataDocument) : Except OrganizationError B := do
  let bytes : B := Platform.toVec (Serde.toValue document)
  refuseIf (ByteString.size bytes > maxMetadataBytes) .invalidRequest
  let wire : MetadataDocument ← orRefuse (fromSlice bytes) .internal
  refuseIf (¬ wire.validate) .internal
  return bytes

/-- `write_document`. -/
def writeDocument (nonce : Uuid) (bytes : B) :
    Durable (Volume LibraryPlace B) OrganizationError Unit :=
  Durable.mapError (fun _ => .internal) (do
    match ← Durable.inspect fun v => .ok (v.node .library) with
    | none => createPrivateDir .library
    | some _ => pure ()
    durableReplace .metadata (.temporary nonce) bytes)

/-- The document a mutation starts from: a missing one is revision zero. -/
def MetadataState.current : MetadataState → Except OrganizationError MetadataDocument
  | .missing => .ok ⟨0, [], []⟩
  | .valid document => .ok document
  | .unavailable => .error .metadataUnavailable

/-- `checked_add(1)`. -/
def nextRevision (revision : UInt64) : Except OrganizationError UInt64 := do
  refuseIf (revision.toNat + 1 ≥ UInt64.size) .invalidRequest
  return revision + 1

/-- `mutate`.  What the edit returns is the draft and the affected folder. -/
def mutate (nonce : Uuid) (expectedRevision : UInt64)
    (edit : Draft → Except OrganizationError (Draft × Option String)) :
    Durable (Volume LibraryPlace B) OrganizationError OrganizationOutcome := do
  let document ← Durable.inspect fun v => (readLibraryMetadata v).current
  Durable.lift (refuseIf (expectedRevision ≠ document.revision)
    (.revisionConflict document.revision))
  let edited ← Durable.lift (edit ⟨document.folders, document.meetings⟩)
  if edited.1.prune = ⟨document.folders, document.meetings⟩ then
    return { revision := document.revision, changed := false, folderId := edited.2 }
  else do
    let revision ← Durable.lift (nextRevision document.revision)
    let bytes ← Durable.lift
      (serializeMetadata (B := B) ⟨revision, edited.1.prune.folders, edited.1.prune.meetings⟩)
    writeDocument nonce bytes
    return { revision, changed := true, folderId := edited.2 }

/-! ## The edits -/

/-- The closure of `create_folder`. -/
def editCreateFolder (id name : String) (draft : Draft) :
    Except OrganizationError (Draft × Option String) :=
  .ok ({ draft with folders := insertKey Folder.id ⟨id, name⟩ draft.folders }, some id)

/-- The closure of `rename_folder`. -/
def editRenameFolder (folderId name : String) (draft : Draft) :
    Except OrganizationError (Draft × Option String) := do
  let _ ← orRefuse (lookupKey Folder.id folderId draft.folders) .invalidRequest
  return ({ draft with
    folders := modifyKey Folder.id folderId (fun folder => { folder with name }) draft.folders },
    some folderId)

/-- A row without its reference to a folder. -/
def MeetingMetadata.clearFolder (folderId : String) (row : MeetingMetadata) : MeetingMetadata :=
  if row.folderId = some folderId then { row with folderId := none } else row

/-- The closure of `delete_folder`. -/
def editDeleteFolder (folderId : String) (draft : Draft) :
    Except OrganizationError (Draft × Option String) := do
  refuseIf (¬ draft.folders.any fun folder => folder.id == folderId) .invalidRequest
  return (⟨draft.folders.filter fun folder => folder.id ≠ folderId,
    draft.meetings.map (MeetingMetadata.clearFolder folderId)⟩, some folderId)

/-- The closure of `assign_meeting_folder`. -/
def editAssignMeetingFolder (meetingId : String) (folderId : Option String) (draft : Draft) :
    Except OrganizationError (Draft × Option String) := do
  refuseIf (folderId.any fun id => !draft.folders.any fun folder => folder.id == id) .invalidRequest
  return (draft.upsert meetingId (fun row => { row with folderId })
    ⟨meetingId, none, folderId⟩, folderId)

/-- The closure of `set_meeting_title`. -/
def editSetMeetingTitle (meetingId : String) (title : Option String) (draft : Draft) :
    Except OrganizationError (Draft × Option String) :=
  .ok (draft.upsert meetingId (fun row => { row with title }) ⟨meetingId, title, none⟩, none)

/-- The closure of `forget_meeting`. -/
def editForgetMeeting (meetingId : String) (draft : Draft) :
    Except OrganizationError (Draft × Option String) :=
  .ok ({ draft with meetings := draft.meetings.filter fun row => row.meetingId ≠ meetingId }, none)

/-- The closure of `reinstate_meeting_organization`. -/
def editReinstate (meetingId : String) (title folderId : Option String) (draft : Draft) :
    Except OrganizationError (Draft × Option String) :=
  let resolvedFolder := folderId.filter fun id => draft.folders.any fun folder => folder.id == id
  .ok (draft.upsert meetingId (fun row => { row with title, folderId := resolvedFolder })
    ⟨meetingId, title, resolvedFolder⟩, none)

/-! ## The mutators -/

/-- What a call takes from the world around the document: which meetings have a
record that is a file, and the random names it draws. -/
structure OrganizationWorld where
  recordPresent : String → Bool
  folderId : Uuid
  nonce : Uuid

/-- `meeting_is_present`. -/
def OrganizationWorld.meetingIsPresent (world : OrganizationWorld) (meetingId : String) : Bool :=
  validOpaqueId meetingId && world.recordPresent meetingId

variable (world : OrganizationWorld)

def createFolder (expectedRevision : UInt64) (name : String) :
    Durable (Volume LibraryPlace B) OrganizationError OrganizationOutcome := do
  let name ← Durable.lift (orRefuse (normalizedLabel name) .invalidRequest)
  let outcome ← mutate world.nonce expectedRevision (editCreateFolder world.folderId.text name)
  return if outcome.changed then outcome else { outcome with folderId := none }

def renameFolder (expectedRevision : UInt64) (folderId name : String) :
    Durable (Volume LibraryPlace B) OrganizationError OrganizationOutcome := do
  Durable.lift (refuseIf (¬ canonicalUuid4 folderId) .invalidRequest)
  let name ← Durable.lift (orRefuse (normalizedLabel name) .invalidRequest)
  mutate world.nonce expectedRevision (editRenameFolder folderId name)

def deleteFolder (expectedRevision : UInt64) (folderId : String) :
    Durable (Volume LibraryPlace B) OrganizationError OrganizationOutcome := do
  Durable.lift (refuseIf (¬ canonicalUuid4 folderId) .invalidRequest)
  mutate world.nonce expectedRevision (editDeleteFolder folderId)

def assignMeetingFolder (expectedRevision : UInt64) (meetingId : String)
    (folderId : Option String) :
    Durable (Volume LibraryPlace B) OrganizationError OrganizationOutcome := do
  Durable.lift (refuseIf (¬ world.meetingIsPresent meetingId) .invalidRequest)
  Durable.lift (refuseIf (folderId.any fun id => !canonicalUuid4 id) .invalidRequest)
  mutate world.nonce expectedRevision (editAssignMeetingFolder meetingId folderId)

/-- `title.map(normalized_label).transpose()`, a refused label refused. -/
def normalizedTitle (title : Option String) : Except OrganizationError (Option String) :=
  match title with
  | some value => do
    let label ← orRefuse (normalizedLabel value) .invalidRequest
    return some label
  | none => return none

def setMeetingTitle (expectedRevision : UInt64) (meetingId : String) (title : Option String) :
    Durable (Volume LibraryPlace B) OrganizationError OrganizationOutcome := do
  Durable.lift (refuseIf (¬ world.meetingIsPresent meetingId) .invalidRequest)
  let title ← Durable.lift (normalizedTitle title)
  mutate world.nonce expectedRevision (editSetMeetingTitle meetingId title)

/-- Every failure of the mutation is `Err(())`. -/
def forgetMeeting (meetingId : String) : Durable (Volume LibraryPlace B) Unit Unit := do
  match ← Durable.inspect fun v => .ok (readLibraryMetadata v) with
  | .valid document =>
    let _ ← Durable.mapError (fun _ => ())
      (mutate world.nonce document.revision (editForgetMeeting meetingId))
    return ()
  | _ => return ()

def reinstateMeetingOrganization (meetingId : String) (title folderId : Option String) :
    Durable (Volume LibraryPlace B) Unit Unit :=
  if title = none ∧ folderId = none then pure ()
  else do
    Durable.lift (refuseIf (¬ world.meetingIsPresent meetingId) ())
    match ← Durable.inspect fun v => .ok (readLibraryMetadata v) with
    | .unavailable => return ()
    | .missing =>
      let _ ← Durable.mapError (fun _ => ())
        (mutate world.nonce 0 (editReinstate meetingId title folderId))
      return ()
    | .valid document =>
      let _ ← Durable.mapError (fun _ => ())
        (mutate world.nonce document.revision (editReinstate meetingId title folderId))
      return ()

end Store

end YawnApp.SessionCore
