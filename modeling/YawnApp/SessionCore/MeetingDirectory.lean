import Mathlib.Data.List.Infix
import YawnApp.Foundation.Directory
import YawnApp.SessionCore.KeptArtifacts

set_option autoImplicit false

/-!
# A meeting directory

A meeting directory holds its record `meeting.json`, the tree of its artifacts
and the folder of its transcription requests.  The record is only ever replaced
whole and the folder has a fixed shape, so each has a field of its own; the
artifacts are a volume, in which a place is the list of its components.
-/

namespace YawnApp.SessionCore

open YawnApp.Foundation

variable {B : Type}

/-! ## Places in the tree of artifacts -/

/-- `Path::components` of a relative path: empty components and single dots are
dropped. -/
def components (path : String) : List String :=
  ((path.toList.splitOn '/').filter fun part => part != [] && part != ['.']).map String.ofList

inductive MeetingPath where
  /-- A file or directory below the meeting directory, which itself has no
  components. -/
  | entry (components : List String)
  /-- The temporary file beside an entry, with the random part of its name. -/
  | temporary (components : List String) (nonce : Uuid)
deriving DecidableEq

namespace MeetingPath

/-- The directories above an entry, the outermost first. -/
def above (components : List String) : List (List String) := components.inits.dropLast

instance : Location MeetingPath where
  ancestors
    | entry components => ((above components).map entry).reverse
    | temporary components _ => ((above components).map entry).reverse

/-- The components of the file at a place, from the meeting directory on. -/
def parts : MeetingPath → List String
  | entry components => components
  | temporary components nonce =>
    components.dropLast ++ ["." ++ components.getLastD "" ++ "." ++ nonce.text ++ ".tmp"]

/-- What is not a temporary file. -/
def IsEntry : MeetingPath → Prop
  | entry _ => True
  | temporary _ _ => False

end MeetingPath

/-- The artifacts of one meeting. -/
abbrev ArtifactTree (B : Type) : Type := Volume MeetingPath B

/-- `resolve_artifact` and `open_private_file`: every directory on the way is
private, and so is the file. -/
def ArtifactTree.reader (tree : ArtifactTree B) : Reader B := fun path => do
  (MeetingPath.above (components path)).tail.forM fun directory =>
    requirePrivateDirectory tree (.entry directory)
  openPrivateFile tree (.entry (components path))

/-- What is kept of a tree is read as before. -/
theorem Keeps.reader {old new : ArtifactTree B} (h : Keeps MeetingPath.IsEntry old new)
    {path : String} {bytes : B} (hread : old.reader path = .ok bytes) :
    ArtifactTree.reader new path = .ok bytes := by
  unfold ArtifactTree.reader at hread ⊢
  rw [check_bind_eq_ok, forM_eq_ok] at hread ⊢
  obtain ⟨habove, hfile⟩ := hread
  refine ⟨fun directory hdirectory => ?_, ?_⟩
  · obtain ⟨mode, hnode, hmode⟩ := requirePrivateDirectory_eq_ok.mp (habove directory hdirectory)
    obtain ⟨mode', hnode', hmode'⟩ := h.directory (.entry directory) trivial mode hnode
    refine requirePrivateDirectory_eq_ok.mpr ⟨mode', hnode', ?_⟩
    rcases hmode' with rfl | rfl
    · exact hmode
    · rfl
  · unfold openPrivateFile at hfile ⊢
    cases hnode : Volume.node old (.entry (components path)) with
    | none => rw [hnode] at hfile; cases hfile
    | some n =>
      rw [hnode] at hfile
      cases n with
      | file mode found =>
        rw [h.file (.entry (components path)) trivial mode found hnode]
        exact hfile
      | symlink | directory => cases hfile

/-! ## The directory -/

/-- The receipts a transcription request collects. -/
inductive QueueReceipt where
  | request
  | result
  | terminal
  | commit
deriving DecidableEq, Repr

/-- The receipts of one claim. -/
inductive ClaimReceipt where
  | claim
  | release
deriving DecidableEq, Repr

/-- The directory of one transcription request, a folder of receipts with
`claims/` in it, which is made with the first claim. -/
structure ItemDirectory (B : Type) where
  receipts : Drawer QueueReceipt B
  claims : Option (Directory Uuid (Drawer ClaimReceipt B))

namespace ItemDirectory

/-- The directory of a request as `mkdir` leaves it. -/
def made : ItemDirectory B := ⟨Drawer.made, none⟩

instance : Inhabited (ItemDirectory B) := ⟨⟨Drawer.empty, none⟩⟩

/-- The folders of the claims: an absent `claims/` is read like an empty one. -/
def claimFolders (item : ItemDirectory B) : Directory Uuid (Drawer ClaimReceipt B) :=
  item.claims.getD Directory.empty

@[simp] theorem claimFolders_some (receipts : Drawer QueueReceipt B)
    (claims : Directory Uuid (Drawer ClaimReceipt B)) :
    (⟨receipts, some claims⟩ : ItemDirectory B).claimFolders = claims := rfl

end ItemDirectory

/-- What a reader sees of the directory of a request: its receipts, those of
each claim with the name of the claim's folder, and whether it and `claims/` are
private. -/
structure ItemView (B : Type) where
  isPrivate : Bool
  receipts : QueueReceipt → Option B
  claimsPrivate : Bool
  claims : List (Uuid × (ClaimReceipt → Option B))

/-- The temporary files are not looked at, nor are the modes of the claims'
folders. -/
def ItemDirectory.view (item : ItemDirectory B) : ItemView B where
  isPrivate := item.receipts.isPrivate
  receipts := item.receipts.linked
  claimsPrivate := item.claimFolders.isPrivate
  claims := item.claimFolders.entries.map fun e => (e.1, e.2.linked)

structure MeetingDirectory (B : Type) where
  /-- `meeting.json`. -/
  record : Option B
  /-- Temporary files of interrupted replacements of the record. -/
  temporaries : List B
  tree : ArtifactTree B
  /-- `transcription-queue/`. -/
  queue : Option (Directory Uuid (ItemDirectory B))

namespace MeetingDirectory

instance : Inhabited (MeetingDirectory B) := ⟨none, [], ∅, none⟩

/-- Reading below the meeting directory. -/
def reader (m : MeetingDirectory B) : Reader B := fun path =>
  if path = "meeting.json" then orRefuse m.record (.io .notFound) else m.tree.reader path

theorem reader_record (m : MeetingDirectory B) :
    m.reader "meeting.json" = orRefuse m.record (.io .notFound) := if_pos rfl

/-- The directory of one request. -/
def item? (m : MeetingDirectory B) (id : Uuid) : Option (ItemDirectory B) :=
  m.queue.bind fun queue => queue.entry id

/-- What a reader sees of one request. -/
def view? (m : MeetingDirectory B) (id : Uuid) : Option (ItemView B) :=
  (m.item? id).map ItemDirectory.view

/-- The same meeting with another directory for one request. -/
def setItem (m : MeetingDirectory B) (id : Uuid) (item : ItemDirectory B) : MeetingDirectory B :=
  { m with queue := some ((m.queue.getD Directory.empty).put id item) }

theorem item?_setItem (m : MeetingDirectory B) (id other : Uuid) (item : ItemDirectory B) :
    (m.setItem id item).item? other = if other = id then some item else m.item? other := by
  unfold item? setItem
  cases m.queue with
  | none | some => simp [Directory.entry_put]

@[simp] theorem item?_setItem_self (m : MeetingDirectory B) (id : Uuid) (item : ItemDirectory B) :
    (m.setItem id item).item? id = some item := by simp [item?_setItem]

@[simp] theorem setItem_setItem (m : MeetingDirectory B) (id : Uuid) (item item' : ItemDirectory B) :
    (m.setItem id item).setItem id item' = m.setItem id item' := by
  unfold setItem
  simp

/-- The same meeting with its queue folder made and private. -/
def withQueue (m : MeetingDirectory B) : MeetingDirectory B :=
  { m with queue := some (m.queue.getD Directory.empty).chmod }

/-- Artifacts are read as before when the tree kept its entries. -/
theorem keepsArtifacts_reader {m t : MeetingDirectory B} (h : Keeps MeetingPath.IsEntry m.tree t.tree) :
    m.reader.KeepsArtifacts t.reader := by
  intro path hpath bytes hread
  unfold reader at hread ⊢
  rw [if_neg hpath] at hread ⊢
  exact h.reader hread

/-! ### Programs on a part -/

variable {ε α : Type}

/-- A program on the directory of one request. -/
def inItem (id : Uuid) (program : Durable (ItemDirectory B) ε α) :
    Durable (MeetingDirectory B) ε α :=
  Durable.zoom (fun m => (m.item? id).getD default) (fun item m => m.setItem id item) program

/-- A program on the receipts of one request. -/
def inReceipts (id : Uuid) (program : Durable (Drawer QueueReceipt B) ε α) :
    Durable (MeetingDirectory B) ε α :=
  inItem id (Durable.zoom ItemDirectory.receipts (fun receipts item => { item with receipts }) program)

/-- A program on the folders of the claims of one request, which are there. -/
def inClaims (id : Uuid) (program : Durable (Directory Uuid (Drawer ClaimReceipt B)) ε α) :
    Durable (MeetingDirectory B) ε α :=
  inItem id (Durable.zoom ItemDirectory.claimFolders
    (fun claims item => { item with claims := some claims }) program)

/-- A program on the artifacts. -/
def inTree (program : Durable (ArtifactTree B) ε α) : Durable (MeetingDirectory B) ε α :=
  Durable.zoom MeetingDirectory.tree (fun tree m => { m with tree }) program

/-- `durable_replace` of `meeting.json`: a temporary file, its contents and the
rename. -/
def replaceRecord [ByteString B] (bytes : B) : Durable (MeetingDirectory B) ε Unit := do
  Durable.write fun m => { m with temporaries := ByteString.empty :: m.temporaries }
  Durable.write fun m => { m with temporaries := bytes :: m.temporaries.tail }
  Durable.write fun m => { m with temporaries := m.temporaries.tail, record := some bytes }

theorem replaceRecord_apply [ByteString B] (bytes : B) (m : MeetingDirectory B) :
    (replaceRecord bytes : Durable (MeetingDirectory B) ε Unit).exec m =
      ⟨[{ m with temporaries := ByteString.empty :: m.temporaries },
        { m with temporaries := bytes :: m.temporaries }, { m with record := some bytes }], .ok ()⟩ :=
  rfl

end MeetingDirectory

/-- `meetings/`. -/
abbrev Meetings (B : Type) : Type := Directory String (MeetingDirectory B)

end YawnApp.SessionCore
