import YawnApp.Foundation.Directory
import YawnApp.SessionCore.Text

set_option autoImplicit false

/-!
# Discarding an enrollment candidate

A candidate is a private directory `profile-candidates/<id>` with a
`voiceprint.json` and whatever else the native side left beside it.
`profile.discard` checks the digest of the voiceprint, removes every entry of the
directory and then the directory.  It is meant to be repeated: a directory that is
not there any more is an answer and no refusal.

One process works on the directory, so what a descriptor refers to is what stands at
its path; the inode numbers that the code compares are kept.  A crash stops a call
between two of its steps, and a flush is a step that changes nothing.
-/

namespace YawnApp.Worker

open YawnApp.Foundation YawnApp.SessionCore Durable

/-! ## The file tree -/

/-- What stands at a name, not followed: `V` is what a directory may hold.  The mode
of a directory is the `isPrivate` of its entries. -/
inductive Inode (V B : Type) where
  | directory (owned : Bool) (number : Nat) (entries : Directory String V)
  | regular (owned : Bool) (number mode : Nat) (bytes : B)
  | symlink (owned : Bool)
  | special (owned : Bool)

namespace Inode

variable {V B : Type}

/-- `_owned_by_effective_user` -/
def ownedByEffectiveUser : Inode V B → Bool
  | directory owned _ _ => owned
  | regular owned _ _ _ => owned
  | symlink owned => owned
  | special owned => owned

/-- `stat.S_ISDIR` -/
def isDirectory : Inode V B → Bool
  | directory _ _ _ => true
  | _ => false

end Inode

/-- An entry of a candidate directory. -/
abbrev Leaf (B : Type) := Inode Unit B

/-- What stands at a profile id. -/
abbrev CandidateNode (B : Type) := Inode (Leaf B) B

/-- The app data root, as far as candidates go. -/
structure AppData (B : Type) where
  /-- The root is an absolute path to a directory of mode 0700, not a symlink, that the
  user owns. -/
  rootIsPrivate : Bool
  /-- What stands at `profile-candidates`. -/
  candidates : Option (Inode (CandidateNode B) B)

/-- The refusals of the adapters and those of the storage rules. -/
inductive DiscardRefused where
  | adapter (text : String)
  | storage (text : String)
deriving DecidableEq

/-- The order in which `os.listdir` gives the names of a directory. -/
structure Listing where
  order : List String → List String
  perm : ∀ names, (order names).Perm names

/-- The descriptors of an opened quarantine, by the inodes they refer to. -/
structure ProfileQuarantine where
  candidates : Nat
  candidate : Nat

namespace AppData

variable {B : Type}

/-- What stands at `profile-candidates/<id>`. -/
def candidateAt (s : AppData B) (profileId : String) : Option (CandidateNode B) :=
  match s.candidates with
  | some (.directory _ _ nodes) => nodes.entry profileId
  | _ => none

/-- Change what is under `profile-candidates`. -/
def editCandidates (s : AppData B)
    (edit : Directory String (CandidateNode B) → Directory String (CandidateNode B)) : AppData B :=
  match s.candidates with
  | some (.directory owned number nodes) =>
    { s with candidates := some (.directory owned number (edit nodes)) }
  | _ => s

/-- `os.unlink(entry, dir_fd=candidate_fd)` -/
def unlink (profileId name : String) (s : AppData B) : AppData B :=
  match s.candidateAt profileId with
  | some (.directory owned number entries) =>
    s.editCandidates fun nodes => nodes.put profileId (.directory owned number (entries.remove name))
  | _ => s

/-- `os.rmdir(profile_id, dir_fd=candidates_fd)` -/
def rmdir (profileId : String) (s : AppData B) : AppData B :=
  s.editCandidates fun nodes => nodes.remove profileId

end AppData

/-! ## The operation -/

/-- `MAX_PROFILE_BYTES` -/
def maxProfileBytes : Nat := 4 * 1024 * 1024

def voiceprintName : String := "voiceprint.json"

/-- `_exact_arguments` -/
def exactArguments (arguments : Value) (names : List String) :
    Except DiscardRefused (List (String × Value)) :=
  match arguments with
  | .object fields =>
    if (fields.all fun f => f.1 ∈ names) && names.all fun name => name ∈ fields.map Prod.fst then
      .ok fields
    else .error (.adapter "operation arguments do not match the closed schema")
  | _ => .error (.adapter "operation arguments do not match the closed schema")

/-- `opaque_id`, with `str.isalnum` of one character as the parameter. -/
def opaqueId (isalnum : Char → Bool) (value : Option Value) (label : String) :
    Except DiscardRefused String :=
  match value with
  | some (.string text) =>
    if text = "" ∨ 128 < text.length ∨ text = "." ∨ text = ".." ∨ '/' ∈ text.toList ∨
        '\\' ∈ text.toList ∨ ¬ text.toList.all fun c => isalnum c || c = '-' || c = '_' then
      .error (.storage (label ++ " must be an opaque identifier"))
    else .ok text
  | _ => .error (.storage (label ++ " must be an opaque identifier"))

/-- `content_digest_id` -/
def contentDigestId (value : Option Value) (label : String) : Except DiscardRefused String :=
  match value with
  | some (.string text) =>
    if validSha256 text then .ok text
    else .error (.adapter (label ++ " must be a lowercase SHA-256 digest"))
  | _ => .error (.adapter (label ++ " must be a lowercase SHA-256 digest"))

section Operation

variable {B V : Type}

/-- `_require_private_directory_fd` -/
def requirePrivateDirectoryFd (owned : Bool) (entries : Directory String V) (label : String) :
    Except DiscardRefused Unit :=
  refuseIf (¬ entries.isPrivate ∨ ¬ owned) (.adapter (label ++ " is not an owner-private directory"))

/-- `_require_directory_link`: the directory is still the one that was opened. -/
def requireDirectoryLink (link : Option (Inode V B)) (expected : Nat) (label : String) :
    Except DiscardRefused Unit :=
  match link with
  | some (.directory owned number entries) =>
    refuseIf (number ≠ expected ∨ ¬ entries.isPrivate ∨ ¬ owned)
      (.adapter (label ++ " changed before cleanup"))
  | _ => .error (.adapter (label ++ " changed before cleanup"))

/-- `_profile_candidate_is_absent` -/
def profileCandidateIsAbsent (profileId : String) (s : AppData B) : Except DiscardRefused Bool := do
  refuseIf (¬ s.rootIsPrivate) (.adapter "app data root is not an owner-private directory")
  match s.candidates with
  | none => .ok true
  | some (.directory owned _ nodes) => do
    requirePrivateDirectoryFd owned nodes "profile quarantine root"
    match nodes.entry profileId with
    | none => .ok true
    | some (.directory owned _ entries) => do
      requirePrivateDirectoryFd owned entries "profile quarantine"
      .ok false
    | some _ => .error (.adapter "profile cleanup path is unsafe")
  | some _ => .error (.adapter "profile cleanup path is unsafe")

/-- `_open_profile_quarantine` -/
def openProfileQuarantine (profileId : String) (s : AppData B) :
    Except DiscardRefused ProfileQuarantine := do
  refuseIf (¬ s.rootIsPrivate) (.adapter "app data root is not an owner-private directory")
  match s.candidates with
  | some (.directory owned number nodes) => do
    requirePrivateDirectoryFd owned nodes "profile quarantine root"
    match nodes.entry profileId with
    | some (.directory owned' number' entries) => do
      requirePrivateDirectoryFd owned' entries "profile quarantine"
      .ok ⟨number, number'⟩
    | _ => .error (.adapter "profile quarantine is missing or unsafe")
  | _ => .error (.adapter "profile quarantine is missing or unsafe")

/-- The entries of the candidate directory. -/
def candidateEntries (profileId : String) (s : AppData B) : Option (Directory String (Leaf B)) :=
  match s.candidateAt profileId with
  | some (.directory _ _ entries) => some entries
  | _ => none

/-- `_open_profile_candidate`: the bytes to read, or nothing for a symlink. -/
def openProfileCandidate (profileId : String) (s : AppData B) : Except DiscardRefused (Option B) :=
  match (candidateEntries profileId s).bind fun entries => entries.entry voiceprintName with
  | none => .error (.adapter "profile candidate is missing or unsafe")
  | some (.symlink _) => .ok none
  | some (.regular owned _ mode bytes) =>
    if mode ≠ 0o600 ∨ ¬ owned then
      .error (.adapter "profile candidate is not an owner-private regular file")
    else .ok (some bytes)
  | some _ => .error (.adapter "profile candidate is not an owner-private regular file")

/-- `_read_profile_candidate` -/
def readProfileCandidate [ByteString B] (descriptor : Option B) : Except DiscardRefused B :=
  match descriptor with
  | none => .error (.adapter "profile candidate may not be a symlink")
  | some bytes =>
    if maxProfileBytes < ByteString.size bytes then
      .error (.adapter "profile candidate exceeds its bounded read limit")
    else .ok bytes

/-- The two links of the chain that `_remove_profile_quarantine` checks, before it
removes anything and once more before the directory goes. -/
def requireDirectoryLinks (quarantine : ProfileQuarantine) (profileId : String) (s : AppData B) :
    Except DiscardRefused Unit := do
  requireDirectoryLink s.candidates quarantine.candidates "profile quarantine root"
  requireDirectoryLink (s.candidateAt profileId) quarantine.candidate "profile quarantine"

/-- The preflight of `_remove_profile_quarantine`, which gives the names to remove. -/
def preflight (listdir : Listing) (profileId : String) (s : AppData B) :
    Except DiscardRefused (List String) :=
  match candidateEntries profileId s with
  | none => .error (.adapter "profile quarantine changed before cleanup")
  | some entries => do
    (listdir.order entries.names).forM fun name =>
      refuseIf ((entries.entry name).any fun leaf => leaf.isDirectory || !leaf.ownedByEffectiveUser)
        (.adapter "profile quarantine has an unsafe directory")
    .ok (listdir.order entries.names)

/-- `_remove_profile_quarantine` -/
def removeProfileQuarantine (listdir : Listing) (quarantine : ProfileQuarantine)
    (profileId : String) : Durable (AppData B) DiscardRefused Unit := do
  Durable.inspect (requireDirectoryLinks quarantine profileId)
  let names ← Durable.inspect (preflight listdir profileId)
  let _ ← Durable.forEach (fun name => Durable.write (AppData.unlink profileId name)) names
  Durable.write id
  Durable.inspect (requireDirectoryLinks quarantine profileId)
  Durable.write (AppData.rmdir profileId)
  Durable.write id
  Durable.write id

/-- `profile_discard`, once its arguments are read. -/
def discardCandidate [Platform B] (listdir : Listing) (profileId profileSha256 : String) :
    Durable (AppData B) DiscardRefused (List (String × String)) := do
  if ← Durable.inspect (profileCandidateIsAbsent profileId) then
    return [("profile", profileSha256)]
  else
    let quarantine ← Durable.inspect (openProfileQuarantine profileId)
    let descriptor ← Durable.inspect (openProfileCandidate profileId)
    let bytes ← Durable.lift (readProfileCandidate descriptor)
    Durable.lift (refuseIf (Platform.sha256 bytes ≠ profileSha256)
      (.adapter "profile cleanup candidate digest changed"))
    removeProfileQuarantine listdir quarantine profileId
    return [("profile", profileSha256)]

/-- `profile_discard` -/
def profileDiscard [Platform B] (isalnum : Char → Bool) (listdir : Listing) (arguments : Value) :
    Durable (AppData B) DiscardRefused (List (String × String)) := do
  Durable.inspect fun s : AppData B =>
    refuseIf (¬ s.rootIsPrivate) (.adapter "app data root must be an owner-private directory")
  let values ← Durable.lift (exactArguments arguments ["profile_id", "profile_sha256"])
  let profileId ← Durable.lift (opaqueId isalnum (fieldOf values "profile_id") "profile_id")
  let profileSha256 ← Durable.lift (contentDigestId (fieldOf values "profile_sha256") "profile_sha256")
  discardCandidate listdir profileId profileSha256

end Operation

/-! ## What a call does -/

section Calls

variable {B V : Type} {profileId : String} {q : ProfileQuarantine} {s : AppData B}
  {entries : Directory String (Leaf B)}

/-- A private chain down to a candidate directory with these entries. -/
structure Chain (profileId : String) (q : ProfileQuarantine) (s : AppData B)
    (entries : Directory String (Leaf B)) : Prop where
  root : s.rootIsPrivate = true
  found : ∃ nodes, s.candidates = some (.directory true q.candidates nodes) ∧
    nodes.isPrivate = true ∧ nodes.entry profileId = some (.directory true q.candidate entries) ∧
    entries.isPrivate = true

/-- A private chain to where the candidate directory was. -/
structure Discarded (profileId : String) (s : AppData B) : Prop where
  root : s.rootIsPrivate = true
  absent : s.candidates = none ∨ ∃ number nodes, s.candidates = some (.directory true number nodes) ∧
    nodes.isPrivate = true ∧ nodes.entry profileId = none

theorem Discarded.candidateAt (h : Discarded profileId s) : s.candidateAt profileId = none := by
  unfold AppData.candidateAt
  rcases h.absent with hnone | ⟨number, nodes, hsome, -, hentry⟩
  · rw [hnone]
  · rw [hsome]
    exact hentry

theorem Chain.candidateAt (h : Chain profileId q s entries) :
    s.candidateAt profileId = some (.directory true q.candidate entries) := by
  obtain ⟨nodes, hsome, -, hentry, -⟩ := h.found
  unfold AppData.candidateAt
  rw [hsome]
  exact hentry

theorem Chain.candidateEntries (h : Chain profileId q s entries) :
    candidateEntries profileId s = some entries := by
  unfold Worker.candidateEntries
  rw [h.candidateAt]

theorem Discarded.candidateEntries (h : Discarded profileId s) :
    candidateEntries profileId s = none := by
  unfold Worker.candidateEntries
  rw [h.candidateAt]

/-- Unlinking an entry leaves the chain. -/
theorem Chain.unlink (h : Chain profileId q s entries) (name : String) :
    Chain profileId q (s.unlink profileId name) (entries.remove name) := by
  obtain ⟨nodes, hsome, hprivate, -, hleaf⟩ := h.found
  have hnew : s.unlink profileId name = { s with candidates := some (.directory true q.candidates
      (nodes.put profileId (.directory true q.candidate (entries.remove name)))) } := by
    unfold AppData.unlink AppData.editCandidates
    rw [h.candidateAt, hsome]
  rw [hnew]
  exact ⟨h.root, _, rfl, hprivate, Directory.entry_put_self _ _ _, hleaf⟩

/-- Removing the directory leaves the chain above it. -/
theorem Chain.rmdir (h : Chain profileId q s entries) : Discarded profileId (s.rmdir profileId) := by
  obtain ⟨nodes, hsome, hprivate, -, -⟩ := h.found
  have hnew : s.rmdir profileId =
      { s with candidates := some (.directory true q.candidates (nodes.remove profileId)) } := by
    unfold AppData.rmdir AppData.editCandidates
    rw [hsome]
  rw [hnew]
  exact ⟨h.root, .inr ⟨_, _, rfl, hprivate, if_pos rfl⟩⟩

theorem entry_foldl_remove (names : List String) (name : String) :
    ∀ entries : Directory String V, (names.foldl Directory.remove entries).entry name =
      if name ∈ names then none else entries.entry name := by
  induction names with
  | nil => intro entries; rfl
  | cons first rest ih =>
    intro entries
    rw [List.foldl_cons, ih, Directory.entry_remove]
    by_cases hfirst : name = first
    · simp [hfirst]
    · simp [hfirst]

/-- The state once some entries are unlinked. -/
def unlinked (profileId : String) (s : AppData B) (names : List String) : AppData B :=
  names.foldl (fun s name => s.unlink profileId name) s

theorem Chain.after (names : List String) :
    ∀ {s : AppData B} {entries : Directory String (Leaf B)}, Chain profileId q s entries →
      Chain profileId q (unlinked profileId s names) (names.foldl Directory.remove entries) := by
  induction names with
  | nil => exact fun h => h
  | cons name rest ih => exact fun h => ih (h.unlink name)

/-! ### The readers -/

theorem Chain.links (h : Chain profileId q s entries) : requireDirectoryLinks q profileId s = .ok () := by
  obtain ⟨nodes, hsome, hprivate, -, hleaf⟩ := h.found
  have hroot : requireDirectoryLink s.candidates q.candidates "profile quarantine root" = .ok () := by
    rw [hsome]
    exact refuseIf_of_not (by simp [hprivate])
  have hcandidate : requireDirectoryLink (s.candidateAt profileId) q.candidate "profile quarantine" =
      .ok () := by
    rw [h.candidateAt]
    exact refuseIf_of_not (by simp [hleaf])
  unfold requireDirectoryLinks
  rw [hroot, ok_bind, hcandidate]

theorem Chain.absent (h : Chain profileId q s entries) :
    profileCandidateIsAbsent profileId s = .ok false := by
  obtain ⟨nodes, hsome, hprivate, hentry, hleaf⟩ := h.found
  unfold profileCandidateIsAbsent requirePrivateDirectoryFd
  rw [hsome, refuseIf_of_not (by simp [h.root]), ok_bind]
  dsimp only
  rw [hentry, refuseIf_of_not (by simp [hprivate]), ok_bind]
  dsimp only
  rw [refuseIf_of_not (by simp [hleaf]), ok_bind]

theorem Chain.opened (h : Chain profileId q s entries) : openProfileQuarantine profileId s = .ok q := by
  obtain ⟨nodes, hsome, hprivate, hentry, hleaf⟩ := h.found
  unfold openProfileQuarantine requirePrivateDirectoryFd
  rw [hsome, refuseIf_of_not (by simp [h.root]), ok_bind]
  dsimp only
  rw [hentry, refuseIf_of_not (by simp [hprivate]), ok_bind]
  dsimp only
  rw [refuseIf_of_not (by simp [hleaf]), ok_bind]

theorem Discarded.absent' (h : Discarded profileId s) :
    profileCandidateIsAbsent profileId s = .ok true := by
  unfold profileCandidateIsAbsent requirePrivateDirectoryFd
  rw [refuseIf_of_not (by simp [h.root]), ok_bind]
  rcases h.absent with hnone | ⟨number, nodes, hsome, hprivate, hentry⟩
  · rw [hnone]
  · rw [hsome]
    dsimp only
    rw [hentry, refuseIf_of_not (by simp [hprivate]), ok_bind]

/-- Every entry may be removed. -/
def Removable (entries : Directory String (Leaf B)) : Prop :=
  ∀ name leaf, entries.entry name = some leaf →
    leaf.isDirectory = false ∧ leaf.ownedByEffectiveUser = true

theorem Chain.preflight (h : Chain profileId q s entries) (hremovable : Removable entries)
    (listdir : Listing) : preflight listdir profileId s = .ok (listdir.order entries.names) := by
  have hcheck : ((listdir.order entries.names).forM fun name =>
      refuseIf ((entries.entry name).any fun leaf => leaf.isDirectory || !leaf.ownedByEffectiveUser)
        (DiscardRefused.adapter "profile quarantine has an unsafe directory")) = .ok () := by
    refine forM_eq_ok.mpr fun name _ => refuseIf_of_not ?_
    cases hentry : entries.entry name with
    | none => simp
    | some leaf =>
      obtain ⟨hdirectory, howned⟩ := hremovable name leaf hentry
      simp [hdirectory, howned]
  unfold Worker.preflight
  rw [h.candidateEntries]
  dsimp only
  rw [hcheck, ok_bind]

/-! ### The removal -/

/-- The states of a removal: the entries go one by one, and after a flush the
directory. -/
def removalStates (profileId : String) (s : AppData B) (names : List String) : List (AppData B) :=
  Durable.writes (fun name s => s.unlink profileId name) s names ++
    [unlinked profileId s names, (unlinked profileId s names).rmdir profileId,
      (unlinked profileId s names).rmdir profileId, (unlinked profileId s names).rmdir profileId]

theorem Chain.removes (h : Chain profileId q s entries) (hremovable : Removable entries)
    (listdir : Listing) :
    (removeProfileQuarantine listdir q profileId).exec s =
      ⟨removalStates profileId s (listdir.order entries.names), .ok ()⟩ := by
  have hlast : (Durable.writes (fun name s => AppData.unlink profileId name s) s
      (listdir.order entries.names)).getLastD s =
      unlinked profileId s (listdir.order entries.names) := by
    have htake := getLastD_take_writes (fun name s => AppData.unlink profileId name s)
      (listdir.order entries.names) s (listdir.order entries.names).length
    rwa [List.take_length, List.take_of_length_le (length_writes _ _ _).le] at htake
  unfold removeProfileQuarantine removalStates
  rw [bind_inspect_of_ok _ h.links, bind_inspect_of_ok _ (h.preflight hremovable listdir),
    bind_of_eq_ok _ (forEach_write _ _ _), hlast, bind_write, id,
    bind_inspect_of_ok _ (h.after _).links, bind_write, bind_write, id]
  rfl

/-- The state after so many steps of a removal. -/
theorem cut_removalStates (names : List String) (steps : Nat) :
    ((removalStates profileId s names).take steps).getLastD s =
      if steps ≤ names.length + 1 then unlinked profileId s (names.take steps)
      else (unlinked profileId s names).rmdir profileId := by
  have hlength := length_writes (fun name s => AppData.unlink profileId name s) names s
  unfold removalStates
  rw [List.take_append, getLastD_append, getLastD_take_writes, hlength]
  rcases Nat.lt_trichotomy steps (names.length + 1) with hsteps | hsteps | hsteps
  · rw [if_pos hsteps.le, Nat.sub_eq_zero_of_le (Nat.lt_succ_iff.mp hsteps)]
    rfl
  · subst hsteps
    rw [if_pos le_rfl, Nat.add_sub_cancel_left, List.take_of_length_le (Nat.le_succ _)]
    rfl
  · obtain ⟨more, hmore⟩ : ∃ more, steps - names.length = more + 2 :=
      ⟨steps - names.length - 2, by omega⟩
    rw [if_neg (Nat.not_le.mpr hsteps), hmore]
    rcases more with _ | _ | more <;> simp

theorem last_removalStates (names : List String) :
    (removalStates profileId s names).getLastD s = (unlinked profileId s names).rmdir profileId := by
  unfold removalStates
  rw [getLastD_append]
  rfl

end Calls

end YawnApp.Worker
