/-
  Foundation/Volume.lean --- a small model of a POSIX volume.

  A volume is a finite map from places to nodes.  The type `P` of places is the
  caller's: an application that uses a handful of file names lists them as the
  constructors of an inductive type, and a proof that two places differ is then
  a constructor clash and not an argument about strings.  What a place must
  offer is the chain of directories above it.

  Every operation here is one durable step: it is refused, or it takes effect
  whole.  A program made of several of them can be cut in between, which is
  what `Foundation/Durable` is for.  Flushes are not modelled: each step counts
  as durable once it is taken.
-/
import Mathlib.Data.List.AList
import YawnApp.Foundation.Durable

set_option autoImplicit false

namespace YawnApp.Foundation

/-! ## Bytes, nodes and places -/

/-- What a model needs to know about the contents of a file. -/
class ByteString (B : Type) where
  /-- The contents of a file that was created and not written yet. -/
  empty : B
  /-- The length in bytes. -/
  size : B → Nat
  size_empty : size empty = 0

/-- What stands at a place. -/
inductive Node (B : Type) where
  | file (mode : Nat) (bytes : B)
  | directory (mode : Nat)
  | symlink
deriving DecidableEq, Repr

/-- The directories above a place, the nearest first. -/
class Location (P : Type) where
  ancestors : P → List P

/-- The directory that holds a place. -/
def parent? {P : Type} [Location P] (p : P) : Option P := (Location.ancestors p).head?

/-- The kinds of failure a program tells apart. -/
inductive IoError where
  | notFound
  | alreadyExists
  | other
deriving DecidableEq, Repr

/-- A volume. -/
abbrev Volume (P B : Type) : Type := AList fun _ : P => Node B

namespace Volume

variable {P B : Type} [DecidableEq P] {v : Volume P B} {p : P}

/-- What stands at `p`. -/
def node (v : Volume P B) (p : P) : Option (Node B) := AList.lookup p v

/-- Put a node at `p`, in place of whatever stood there. -/
def place (v : Volume P B) (p : P) (n : Node B) : Volume P B := AList.insert p n v

/-- Take away what stands at `p`. -/
def clear (v : Volume P B) (p : P) : Volume P B := AList.erase p v

theorem node_place (v : Volume P B) (p q : P) (n : Node B) :
    (v.place p n).node q = if q = p then some n else v.node q := by
  by_cases h : q = p
  · subst h
    simp [node, place]
  · simp [node, place, AList.lookup_insert_ne h, h]

@[simp] theorem node_place_self (v : Volume P B) (p : P) (n : Node B) :
    (v.place p n).node p = some n := by simp [node_place]

theorem node_place_of_ne {q : P} (n : Node B) (h : q ≠ p) :
    (v.place p n).node q = v.node q := by simp [node_place, h]

theorem node_clear (v : Volume P B) (p q : P) :
    (v.clear p).node q = if q = p then none else v.node q := by
  by_cases h : q = p
  · subst h
    simp [node, clear]
  · simp [node, clear, AList.lookup_erase_ne h, h]

theorem node_clear_of_ne {q : P} (h : q ≠ p) :
    (v.clear p).node q = v.node q := by simp [node_clear, h]

/-! ## Steps -/

/-- Write the whole contents of a file that is open. -/
def writeAll (p : P) (bytes : B) (v : Volume P B) : Except IoError (Volume P B) :=
  match v.node p with
  | some (.file mode _) => .ok (v.place p (.file mode bytes))
  | _ => .error .other

theorem writeAll_of_file {mode : Nat} {old : B} (bytes : B) (h : v.node p = some (.file mode old)) :
    writeAll p bytes v = .ok (v.place p (.file mode bytes)) := by
  simp [writeAll, h]

/-- `unlink(2)`. -/
def removeFile (p : P) (v : Volume P B) : Except IoError (Volume P B) :=
  match v.node p with
  | some (.directory _) => .error .other
  | some _ => .ok (v.clear p)
  | none => .error .notFound

theorem removeFile_of_file {mode : Nat} {bytes : B} (h : v.node p = some (.file mode bytes)) :
    removeFile p v = .ok (v.clear p) := by
  simp [removeFile, h]

/-- `chmod(2)`. -/
def setMode (mode : Nat) (p : P) (v : Volume P B) : Except IoError (Volume P B) :=
  match v.node p with
  | some (.directory _) => .ok (v.place p (.directory mode))
  | some (.file _ bytes) => .ok (v.place p (.file mode bytes))
  | some .symlink => .error .other
  | none => .error .notFound

theorem setMode_of_directory {old : Nat} (mode : Nat) (h : v.node p = some (.directory old)) :
    setMode mode p v = .ok (v.place p (.directory mode)) := by
  simp [setMode, h]

/-! The other steps look at the directory that holds the place. -/

section Steps

variable [Location P] {v : Volume P B} {p : P}

/-- Whether the directory that would hold `p` is there.  The volume's own root
has no parent and is always there. -/
def parentPresent (v : Volume P B) (p : P) : Bool :=
  match parent? p with
  | none => true
  | some d =>
    match v.node d with
    | some (.directory _) => true
    | _ => false

/-- `mkdir(2)`. -/
def createDir (mode : Nat) (p : P) (v : Volume P B) : Except IoError (Volume P B) :=
  if (v.node p).isSome then .error .alreadyExists
  else if v.parentPresent p then .ok (v.place p (.directory mode))
  else .error .notFound

/-- `open(2)` with `O_CREAT | O_EXCL`: a new empty file. -/
def openNew [ByteString B] (mode : Nat) (p : P) (v : Volume P B) :
    Except IoError (Volume P B) :=
  if (v.node p).isSome then .error .alreadyExists
  else if v.parentPresent p then .ok (v.place p (.file mode ByteString.empty))
  else .error .notFound

/-- `link(2)`: a second name for a file; the name must be free. -/
def hardLink (source target : P) (v : Volume P B) : Except IoError (Volume P B) :=
  match v.node source with
  | some n =>
    if (v.node target).isSome then .error .alreadyExists
    else if v.parentPresent target then .ok (v.place target n)
    else .error .notFound
  | none => .error .notFound

/-- `rename(2)` of a file: whatever stood at the target is replaced. -/
def rename (source target : P) (v : Volume P B) : Except IoError (Volume P B) :=
  match v.node source with
  | some n =>
    if v.parentPresent target then .ok ((v.clear source).place target n) else .error .notFound
  | none => .error .notFound

/-- `renamex_np(2)` with `RENAME_EXCL`: the target must be free. -/
def renameExclusive (source target : P) (v : Volume P B) : Except IoError (Volume P B) :=
  if (v.node target).isSome then .error .alreadyExists else rename source target v

/-- The entries of a directory, in the order the volume keeps them. -/
def readDir (v : Volume P B) (d : P) : List (P × Node B) :=
  (v.entries.filter fun entry => parent? entry.1 = some d).map fun entry => (entry.1, entry.2)

theorem mem_readDir {d : P} {n : Node B} :
    (p, n) ∈ v.readDir d ↔ parent? p = some d ∧ v.node p = some n := by
  have hlookup : v.node p = some n ↔ Sigma.mk p n ∈ v.entries := by
    rw [node]
    exact AList.mem_lookup_iff
  rw [hlookup, readDir]
  constructor
  · intro h
    obtain ⟨entry, hentry, heq⟩ := List.mem_map.mp h
    obtain ⟨hmem, hparent⟩ := List.mem_filter.mp hentry
    obtain ⟨hp, hn⟩ := Prod.mk.injEq .. ▸ heq
    subst hp hn
    exact ⟨by simpa using hparent, hmem⟩
  · rintro ⟨hparent, hmem⟩
    exact List.mem_map.mpr ⟨⟨p, n⟩, List.mem_filter.mpr ⟨hmem, by simpa using hparent⟩, rfl⟩

/-- No place is listed twice. -/
theorem nodup_readDir (v : Volume P B) (d : P) : ((v.readDir d).map Prod.fst).Nodup := by
  have hkeys : (v.entries.map Sigma.fst).Nodup := v.nodupKeys
  have hsub : List.Sublist ((v.readDir d).map Prod.fst) (v.entries.map Sigma.fst) := by
    rw [readDir, List.map_map]
    exact (List.filter_sublist).map Sigma.fst
  exact hkeys.sublist hsub

/-! ### What each step needs and does -/

theorem createDir_of_absent (mode : Nat) (habsent : v.node p = none)
    (hparent : v.parentPresent p = true) :
    createDir mode p v = .ok (v.place p (.directory mode)) := by
  simp [createDir, habsent, hparent]

theorem openNew_of_absent [ByteString B] (mode : Nat) (habsent : v.node p = none)
    (hparent : v.parentPresent p = true) :
    openNew mode p v = .ok (v.place p (.file mode ByteString.empty)) := by
  simp [openNew, habsent, hparent]

theorem hardLink_of_absent {source target : P} {n : Node B} (hsource : v.node source = some n)
    (htarget : v.node target = none) (hparent : v.parentPresent target = true) :
    hardLink source target v = .ok (v.place target n) := by
  simp [hardLink, hsource, htarget, hparent]

theorem parentPresent_of_directory {d : P} {mode : Nat} (hparent : parent? p = some d)
    (hdir : v.node d = some (.directory mode)) : v.parentPresent p = true := by
  simp [parentPresent, hparent, hdir]

end Steps

end Volume

end YawnApp.Foundation
