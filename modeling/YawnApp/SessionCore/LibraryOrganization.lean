import YawnApp.SessionCore.LibraryMetadata
import YawnApp.SessionCore.Recorded

set_option autoImplicit false

/-!
# What the organization calls do to the library document

The seven mutators share `mutate`, and `mutate` either leaves the document as it
was or replaces it by the pruned draft under the next revision
(`mutate_document`).  What is left for each mutator is a fact about its edit, a
pure function on the draft: which lookups it changes (`Frame`).
-/

namespace YawnApp.SessionCore

open YawnApp.Foundation

/-- What the writer relies on of `serde_json::to_vec`: the text is read back as
the document it was written from. -/
class CompactText (B : Type) [Platform B] : Prop where
  readText_toVec : ∀ v : Value, v.plain = true → JsonText.readText (Platform.toVec v : B) = some v

instance {known : List (Document × String)} : CompactText (Recorded known) where
  readText_toVec _ _ := rfl

/-! ## Valid documents -/

section Valid

variable [ComposingNormalizer]

theorem validateFolders_sorted {prior : Option String} {folders : List Folder}
    (h : validateFolders prior folders = true) :
    (∀ previous ∈ prior, ∀ folder ∈ folders, previous < folder.id) ∧
      folders.Pairwise fun a b => a.id < b.id := by
  induction folders generalizing prior with
  | nil => exact ⟨fun _ _ => nofun, List.Pairwise.nil⟩
  | cons folder rest ih =>
    rw [validateFolders] at h
    simp only [Bool.and_eq_true, Option.all_eq_true, decide_eq_true_eq] at h
    obtain ⟨⟨-, hprior⟩, hrest⟩ := h
    obtain ⟨hhead, hsorted⟩ := ih hrest
    have hbelow := hhead folder.id rfl
    refine ⟨?_, List.Pairwise.cons hbelow hsorted⟩
    intro previous hprevious other hother
    rcases List.mem_cons.mp hother with rfl | hother
    · exact hprior previous hprevious
    · exact lt_trans (hprior previous hprevious) (hbelow other hother)

theorem validateMeetings_sorted {folders : List Folder} {prior : Option String}
    {meetings : List MeetingMetadata} (h : validateMeetings folders prior meetings = true) :
    (∀ previous ∈ prior, ∀ row ∈ meetings, previous < row.meetingId) ∧
      (meetings.Pairwise fun a b => a.meetingId < b.meetingId) ∧
      ∀ row ∈ meetings, ∀ id ∈ row.folderId, ∃ folder ∈ folders, folder.id = id := by
  induction meetings generalizing prior with
  | nil => exact ⟨fun _ _ => nofun, List.Pairwise.nil, nofun⟩
  | cons row rest ih =>
    rw [validateMeetings] at h
    simp only [Bool.and_eq_true, Option.all_eq_true, decide_eq_true_eq, List.any_eq_true,
      beq_iff_eq] at h
    obtain ⟨⟨⟨⟨-, hprior⟩, -⟩, hfolder⟩, hrest⟩ := h
    obtain ⟨hhead, hsorted, hreferences⟩ := ih hrest
    have hbelow := hhead row.meetingId rfl
    refine ⟨?_, List.Pairwise.cons hbelow hsorted, ?_⟩
    · intro previous hprevious other hother
      rcases List.mem_cons.mp hother with rfl | hother
      · exact hprior previous hprevious
      · exact lt_trans (hprior previous hprevious) (hbelow other hother)
    · intro other hother
      rcases List.mem_cons.mp hother with rfl | hother
      · exact hfolder
      · exact hreferences other hother

/-- What the reader promises about a document. -/
structure MetadataDocument.WellFormed (d : MetadataDocument) : Prop where
  folders : d.folders.Pairwise fun a b => a.id < b.id
  meetings : d.meetings.Pairwise fun a b => a.meetingId < b.meetingId
  references : ∀ row ∈ d.meetings, ∀ id ∈ row.folderId, ∃ folder ∈ d.folders, folder.id = id

theorem MetadataDocument.wellFormed_of_validate {d : MetadataDocument} (h : d.validate = true) :
    d.WellFormed := by
  unfold MetadataDocument.validate at h
  rw [Bool.and_eq_true] at h
  obtain ⟨hfolders, hmeetings⟩ := h
  exact ⟨(validateFolders_sorted hfolders).2, (validateMeetings_sorted hmeetings).2.1,
    (validateMeetings_sorted hmeetings).2.2⟩

end Valid

/-! ## One mutation -/

/-- A file of the library has its directory. -/
def Shelved {B : Type} (v : Volume LibraryPlace B) : Prop :=
  v.node .library = none → v.node .metadata = none

section Mutation

variable {B : Type} [Platform B] [ComposingNormalizer]

/-- `library/` is absent or as the reader wants it. -/
def SafeLibrary (v : Volume LibraryPlace B) : Prop :=
  v.node .library = none ∨ ∃ mode, v.node .library = some (.directory mode) ∧ mode &&& 0o7777 = 0o700

variable {v : Volume LibraryPlace B} {d : MetadataDocument}

theorem safeLibrary_of_current (h : (readLibraryMetadata v).current = .ok d) : SafeLibrary v := by
  unfold readLibraryMetadata at h
  split at h
  · exact .inl ‹_›
  · split at h
    · cases h
    · exact .inr ⟨_, ‹_›, not_not.mp ‹_›⟩
  · cases h

/-- The reader looks at the document only, once the directory is safe. -/
theorem readLibraryMetadata_congr {t : Volume LibraryPlace B} (hv : SafeLibrary v)
    (hshelved : Shelved v) (hlibrary : t.node .library = v.node .library ∨
      t.node .library = some (.directory 0o700)) (hmetadata : t.node .metadata = v.node .metadata) :
    readLibraryMetadata t = readLibraryMetadata v := by
  rcases hlibrary with hsame | hprivate
  · unfold readLibraryMetadata
    rw [hsame, hmetadata]
  · unfold readLibraryMetadata
    rw [hprivate, hmetadata]
    rcases hv with habsent | ⟨mode, hmode, hsafe⟩
    · rw [habsent, hshelved habsent]
      simp
    · rw [hmode]
      simp only [hsafe, ne_eq, not_true_eq_false, if_false]
      rfl

omit [ComposingNormalizer] in
/-- `write_document` puts the bytes in place, or leaves the document alone. -/
theorem writeDocument_frame (nonce : Uuid) (bytes : B) :
    Meets (writeDocument nonce bytes) v (fun _ => True)
      (fun _ t => t.node .library = some (.directory 0o700) ∧
        t.node .metadata = some (.file 0o600 bytes))
      (fun _ t => (t.node .library = v.node .library ∨ t.node .library = some (.directory 0o700)) ∧
        t.node .metadata = v.node .metadata) := by
  have hreplace : ∀ u : Volume LibraryPlace B, (u.node .library = v.node .library ∨
      u.node .library = some (.directory 0o700)) → u.node .metadata = v.node .metadata →
      Meets (durableReplace .metadata (.temporary nonce) bytes) u (fun _ => True)
        (fun _ t => t.node .library = some (.directory 0o700) ∧
          t.node .metadata = some (.file 0o600 bytes))
        (fun _ t => (t.node .library = v.node .library ∨
          t.node .library = some (.directory 0o700)) ∧ t.node .metadata = v.node .metadata) := by
    intro u hlibrary hmetadata
    have hframe := durableReplace_frame bytes u
      (show parent? LibraryPlace.metadata = some .library from rfl) ⟨by decide, by decide⟩
      (show LibraryPlace.temporary nonce ≠ .metadata ∧ LibraryPlace.temporary nonce ≠ .library from
        ⟨by simp, by simp⟩) (by decide)
    refine hframe.mono (fun _ h => h) (fun _ _ h => h) fun _ t ht => ?_
    refine ⟨?_, ht.2.trans hmetadata⟩
    rcases ht.1 with hsame | hprivate
    · rw [hsame]
      exact hlibrary
    · exact .inr hprivate
  unfold writeDocument
  refine Meets.mapError (Meets.bind_inspect (fun found hfound => ?_) fun e he => by cases he)
  cases hfound
  cases hnode : v.node .library with
  | none =>
    rw [hnode] at hreplace
    refine Meets.bind ((createPrivateDir_frame .library v).mono (fun _ h => h)
      (fun _ t ht => ?_) fun _ t ht => ?_)
    · exact hreplace t (.inr ht.1) (ht.2 _ (by decide) (by decide))
    · exact ⟨.inl ((ht _ (by decide)).trans hnode), ht _ (by decide)⟩
  | some =>
    rw [hnode] at hreplace
    exact hreplace v (.inl hnode) rfl

/-- What a mutation may do: nothing to the document, or the pruned draft under
the next revision. -/
inductive Mutated (expectedRevision : UInt64)
    (edit : Draft → Except OrganizationError (Draft × Option String))
    (v t : Volume LibraryPlace B) : Prop where
  | unchanged (h : readLibraryMetadata t = readLibraryMetadata v)
  | written (old new : MetadataDocument) (edited : Draft × Option String)
      (current : (readLibraryMetadata v).current = .ok old)
      (expected : expectedRevision = old.revision)
      (edits : edit ⟨old.folders, old.meetings⟩ = .ok edited)
      (folders : new.folders = edited.1.prune.folders)
      (meetings : new.meetings = edited.1.prune.meetings)
      (changed : ¬ (new.folders = old.folders ∧ new.meetings = old.meetings))
      (revision : new.revision.toNat = old.revision.toNat + 1)
      (valid : new.validate = true)
      (reads : readLibraryMetadata t = .valid new)

omit [ComposingNormalizer] in
theorem nextRevision_ok {revision next : UInt64} (h : nextRevision revision = .ok next) :
    next.toNat = revision.toNat + 1 := by
  unfold nextRevision at h
  simp only [check_bind_eq_ok, refuseIf_eq_ok, pure, Except.pure, Except.ok.injEq] at h
  obtain ⟨hsize, rfl⟩ := h
  change ¬ revision.toNat + 1 ≥ 18446744073709551616 at hsize
  rw [UInt64.toNat_add]
  simp only [UInt64.reduceToNat]
  omega

theorem serializeMetadata_ok [CompactText B] {bytes : B} (h : serializeMetadata d = .ok bytes) :
    ByteString.size bytes ≤ maxMetadataBytes ∧ d.validate = true ∧ parseMetadata bytes = some d := by
  unfold serializeMetadata at h
  simp only [bind_eq_ok, refuseIf_eq_ok, orRefuse_eq_ok, not_not, pure, Except.pure,
    Except.ok.injEq] at h
  obtain ⟨-, hsize, wire, hwire, -, hvalid, rfl⟩ := h
  have hread : (fromSlice (Platform.toVec (Serde.toValue d) : B) : Option MetadataDocument) = some d := by
    unfold fromSlice
    rw [CompactText.readText_toVec _ (Serde.plain_toValue d)]
    exact Serde.fromValue_toValue d
  rw [hread, Option.some.injEq] at hwire
  subst hwire
  refine ⟨Nat.not_lt.mp hsize, hvalid, ?_⟩
  unfold parseMetadata
  rw [hread, Option.bind_some, if_pos hvalid]

theorem mutate_document [CompactText B] (nonce : Uuid) (expectedRevision : UInt64)
    (edit : Draft → Except OrganizationError (Draft × Option String)) (hv : Shelved v) :
    Meets (mutate nonce expectedRevision edit) v (fun _ => True)
      (fun _ t => Shelved t ∧ Mutated expectedRevision edit v t)
      (fun _ t => Shelved t ∧ Mutated expectedRevision edit v t) := by
  have hnothing : Shelved v ∧ Mutated expectedRevision edit v v := ⟨hv, .unchanged rfl⟩
  unfold mutate
  refine Meets.bind_inspect (fun old hold => ?_) fun _ _ => hnothing
  refine Meets.bind_lift (fun _ hexpected => ?_) fun _ _ => hnothing
  refine Meets.bind_lift (fun edited hedited => ?_) fun _ _ => hnothing
  split
  · exact Meets.pure hnothing
  rename_i hchanged
  refine Meets.bind_lift (fun revision hrevision => ?_) fun _ _ => hnothing
  refine Meets.bind_lift (fun bytes hbytes => ?_) fun _ _ => hnothing
  have hsafe := safeLibrary_of_current hold
  obtain ⟨hsize, hvalid, hparse⟩ := serializeMetadata_ok hbytes
  refine Meets.bind ((writeDocument_frame nonce bytes).mono (fun _ h => h)
    (fun _ t ht => Meets.pure ?_) fun _ t ht => ?_)
  · have hshelved : Shelved t := by
      intro habsent
      rw [ht.1] at habsent
      cases habsent
    refine ⟨hshelved, ?_⟩
    refine .written old _ edited hold (not_not.mp (refuseIf_eq_ok.mp hexpected)) hedited rfl rfl ?_
      (nextRevision_ok hrevision) hvalid ?_
    · intro hsame
      exact hchanged (by rw [← hsame.1, ← hsame.2])
    · unfold readLibraryMetadata
      rw [ht.1, ht.2]
      simp only [hparse]
      rw [if_neg (by decide), if_neg]
      intro hrefused
      rcases hrefused with hmode | hlarge
      · exact absurd hmode (by decide)
      · omega
  · refine ⟨?_, .unchanged (readLibraryMetadata_congr hsafe hv ht.1 ht.2)⟩
    intro habsent
    rw [ht.2]
    rcases ht.1 with hsame | hprivate
    · exact hv (hsame ▸ habsent)
    · rw [hprivate] at habsent
      cases habsent

/-- A stale expectation is refused before anything is written. -/
theorem mutate_of_stale {nonce : Uuid} {expectedRevision : UInt64}
    {edit : Draft → Except OrganizationError (Draft × Option String)}
    (h : (readLibraryMetadata v).current = .ok d) (hstale : expectedRevision ≠ d.revision) :
    (mutate nonce expectedRevision edit).exec v = ⟨[], .error (.revisionConflict d.revision)⟩ := by
  unfold mutate
  refine (Durable.bind_inspect_of_ok _ (by exact h)).trans ?_
  exact Durable.bind_lift_of_error _ _ (refuseIf_of hstale)

end Mutation

/-! ## The edits, lookup by lookup -/

/-- The folder of an identifier. -/
def MetadataDocument.folder? (d : MetadataDocument) (id : String) : Option Folder :=
  lookupKey Folder.id id d.folders

/-- The row of a meeting. -/
def MetadataDocument.row? (d : MetadataDocument) (meetingId : String) : Option MeetingMetadata :=
  lookupKey MeetingMetadata.meetingId meetingId d.meetings

/-- The calls, with the arguments of their mutators. -/
inductive LibraryCall where
  | createFolder (expectedRevision : UInt64) (name : String)
  | renameFolder (expectedRevision : UInt64) (folderId name : String)
  | deleteFolder (expectedRevision : UInt64) (folderId : String)
  | assignMeetingFolder (expectedRevision : UInt64) (meetingId : String) (folderId : Option String)
  | setMeetingTitle (expectedRevision : UInt64) (meetingId : String) (title : Option String)
  | forgetMeeting (meetingId : String)
  | reinstateMeetingOrganization (meetingId : String) (title folderId : Option String)
deriving DecidableEq

namespace LibraryCall

/-- The revision the caller expects; two calls take the current one. -/
def expectedRevision? : LibraryCall → Option UInt64
  | .createFolder expected _ | .renameFolder expected _ _ | .deleteFolder expected _
  | .assignMeetingFolder expected _ _ | .setMeetingTitle expected _ _ => some expected
  | .forgetMeeting _ | .reinstateMeetingOrganization _ _ _ => none

/-- The folder a call is about. -/
def folder? (world : OrganizationWorld) : LibraryCall → Option String
  | .createFolder _ _ => some world.folderId.text
  | .renameFolder _ folderId _ | .deleteFolder _ folderId => some folderId
  | _ => none

/-- The meeting a call is about. -/
def meeting? : LibraryCall → Option String
  | .assignMeetingFolder _ meetingId _ | .setMeetingTitle _ meetingId _ | .forgetMeeting meetingId
  | .reinstateMeetingOrganization meetingId _ _ => some meetingId
  | _ => none

/-- What a call does to the rows it is not about: only the deletion of a folder
does anything. -/
def bystander : LibraryCall → MeetingMetadata → MeetingMetadata
  | .deleteFolder _ folderId => MeetingMetadata.clearFolder folderId
  | _ => id

/-- A call changes what it is about.  Every other folder is as it was, and so is
every other row, but for the references to a deleted folder; a row without a
title and a folder is not kept. -/
structure Frame (call : LibraryCall) (world : OrganizationWorld) (old new : MetadataDocument) :
    Prop where
  folders : ∀ id, call.folder? world ≠ some id → new.folder? id = old.folder? id
  rows : ∀ meetingId, call.meeting? ≠ some meetingId →
    new.row? meetingId = ((old.row? meetingId).map call.bystander).filter MeetingMetadata.carries
  deleted : ∀ expected folderId, call = .deleteFolder expected folderId →
    new.folder? folderId = none ∧ ∀ row ∈ new.meetings, row.folderId ≠ some folderId

end LibraryCall

/-- `Frame` for a draft that is still to be pruned. -/
structure EditFrame (call : LibraryCall) (world : OrganizationWorld) (old : MetadataDocument)
    (edited : Draft) : Prop where
  nodup : (edited.meetings.map MeetingMetadata.meetingId).Nodup
  folders : ∀ id, call.folder? world ≠ some id →
    lookupKey Folder.id id edited.folders = old.folder? id
  rows : ∀ meetingId, call.meeting? ≠ some meetingId →
    lookupKey MeetingMetadata.meetingId meetingId edited.meetings =
      (old.row? meetingId).map call.bystander
  deleted : ∀ expected folderId, call = .deleteFolder expected folderId →
    lookupKey Folder.id folderId edited.folders = none ∧
      ∀ row ∈ edited.meetings, row.folderId ≠ some folderId

theorem EditFrame.prune {call : LibraryCall} {world : OrganizationWorld}
    {old new : MetadataDocument} {edited : Draft} (h : EditFrame call world old edited)
    (hfolders : new.folders = edited.prune.folders) (hmeetings : new.meetings = edited.prune.meetings) :
    call.Frame world old new where
  folders id hid := by
    unfold MetadataDocument.folder?
    rw [hfolders]
    exact h.folders id hid
  rows meetingId hmeeting := by
    unfold MetadataDocument.row?
    rw [hmeetings]
    change lookupKey _ _ (edited.meetings.filter _) = _
    rw [lookupKey_filter h.nodup, h.rows meetingId hmeeting]
    rfl
  deleted expected folderId hcall := by
    obtain ⟨hfolder, hrows⟩ := h.deleted expected folderId hcall
    unfold MetadataDocument.folder?
    rw [hfolders, hmeetings]
    exact ⟨hfolder, fun row hrow => hrows row (List.mem_filter.mp hrow).1⟩

/-- The row of one meeting, changed or made. -/
theorem lookupKey_upsert {draft : Draft} {meetingId : String}
    {edit : MeetingMetadata → MeetingMetadata} {absent : MeetingMetadata}
    (hedit : ∀ row, (edit row).meetingId = row.meetingId) (habsent : absent.meetingId = meetingId)
    {other : String} (h : other ≠ meetingId) :
    lookupKey MeetingMetadata.meetingId other (draft.upsert meetingId edit absent).meetings =
      lookupKey MeetingMetadata.meetingId other draft.meetings := by
  unfold Draft.upsert
  dsimp only
  split
  · rw [lookupKey_modifyKey hedit, if_neg h]
  · rw [lookupKey_insertKey, habsent, if_neg h]

theorem nodup_upsert {draft : Draft} {meetingId : String}
    {edit : MeetingMetadata → MeetingMetadata} {absent : MeetingMetadata}
    (hedit : ∀ row, (edit row).meetingId = row.meetingId) (habsent : absent.meetingId = meetingId)
    (h : (draft.meetings.map MeetingMetadata.meetingId).Nodup) :
    ((draft.upsert meetingId edit absent).meetings.map MeetingMetadata.meetingId).Nodup := by
  unfold Draft.upsert
  dsimp only
  split
  · rwa [map_modifyKey hedit]
  · rename_i hnone
    exact nodup_insertKey h (by rw [habsent]; exact hnone)

section Edits

variable {world : OrganizationWorld} {old : MetadataDocument} {edited : Draft × Option String}
  {expected : UInt64}

theorem editCreateFolder_frame {given name : String} (hold : old.WellFormed)
    (h : editCreateFolder world.folderId.text name ⟨old.folders, old.meetings⟩ = .ok edited) :
    EditFrame (.createFolder expected given) world old edited.1 := by
  cases h
  refine ⟨nodup_map_of_sorted hold.meetings, fun id hid => ?_, fun _ _ => ?_, nofun⟩
  · have hne : id ≠ world.folderId.text := fun heq => hid (congrArg some heq.symm)
    exact (lookupKey_insertKey _ _ _).trans (if_neg hne)
  · exact Option.map_id'.symm ▸ rfl

theorem editRenameFolder_frame {folderId given name : String} (hold : old.WellFormed)
    (h : editRenameFolder folderId name ⟨old.folders, old.meetings⟩ = .ok edited) :
    EditFrame (.renameFolder expected folderId given) world old edited.1 := by
  unfold editRenameFolder at h
  simp only [bind_eq_ok, pure, Except.pure, Except.ok.injEq] at h
  obtain ⟨-, -, rfl⟩ := h
  refine ⟨nodup_map_of_sorted hold.meetings, fun id hid => ?_, fun _ _ => ?_,
    fun expected' id heq => ?_⟩
  · have hne : id ≠ folderId := fun heq => hid (congrArg some heq.symm)
    exact (lookupKey_modifyKey (f := fun folder : Folder => { folder with name }) (fun _ => rfl)
      _ _ _).trans (if_neg hne)
  · exact Option.map_id'.symm ▸ rfl
  · cases heq

theorem MeetingMetadata.meetingId_clearFolder (folderId : String) (row : MeetingMetadata) :
    (row.clearFolder folderId).meetingId = row.meetingId := by
  unfold MeetingMetadata.clearFolder
  split <;> rfl

theorem editDeleteFolder_frame {folderId : String} (hold : old.WellFormed)
    (h : editDeleteFolder folderId ⟨old.folders, old.meetings⟩ = .ok edited) :
    EditFrame (.deleteFolder expected folderId) world old edited.1 := by
  unfold editDeleteFolder at h
  simp only [bind_eq_ok, pure, Except.pure, Except.ok.injEq] at h
  obtain ⟨-, -, rfl⟩ := h
  have hkeys := MeetingMetadata.meetingId_clearFolder folderId
  refine ⟨?_, fun id hid => ?_, fun _ _ => lookupKey_map hkeys _ _, ?_⟩
  · have hmap : (old.meetings.map (MeetingMetadata.clearFolder folderId)).map
        MeetingMetadata.meetingId = old.meetings.map MeetingMetadata.meetingId := by
      rw [List.map_map]
      exact List.map_congr_left fun row _ => hkeys row
    rw [hmap]
    exact nodup_map_of_sorted hold.meetings
  · have hne : id ≠ folderId := fun heq => hid (congrArg some heq.symm)
    exact (lookupKey_filter_key _ _ _).trans (if_neg hne)
  · intro _ _ hcall
    cases hcall
    refine ⟨(lookupKey_filter_key _ _ _).trans (if_pos rfl), ?_⟩
    intro row hrow
    obtain ⟨before, -, rfl⟩ := List.mem_map.mp hrow
    unfold MeetingMetadata.clearFolder
    split
    · nofun
    · assumption

/-- The three edits of one row. -/
theorem upsert_frame {call : LibraryCall} {meetingId : String}
    {edit : MeetingMetadata → MeetingMetadata} {absent : MeetingMetadata} (hold : old.WellFormed)
    (hedit : ∀ row, (edit row).meetingId = row.meetingId) (habsent : absent.meetingId = meetingId)
    (hmeeting : call.meeting? = some meetingId) (hbystander : call.bystander = id)
    (hcall : ∀ expected folderId, call ≠ .deleteFolder expected folderId) :
    EditFrame call world old
      (Draft.upsert ⟨old.folders, old.meetings⟩ meetingId edit absent) := by
  refine ⟨nodup_upsert hedit habsent (nodup_map_of_sorted hold.meetings), fun _ _ => rfl,
    fun other hother => ?_, fun expected folderId h => absurd h (hcall expected folderId)⟩
  have hne : other ≠ meetingId := fun heq => hother (hmeeting.trans (congrArg some heq.symm))
  rw [hbystander, lookupKey_upsert hedit habsent hne]
  exact Option.map_id'.symm ▸ rfl

theorem editForgetMeeting_frame {meetingId : String} (hold : old.WellFormed)
    (h : editForgetMeeting meetingId ⟨old.folders, old.meetings⟩ = .ok edited) :
    EditFrame (.forgetMeeting meetingId) world old edited.1 := by
  cases h
  refine ⟨?_, fun _ _ => rfl, fun other hother => ?_, nofun⟩
  · exact (nodup_map_of_sorted hold.meetings).sublist (List.filter_sublist.map _)
  · have hne : other ≠ meetingId := fun heq => hother (congrArg some heq.symm)
    refine ((lookupKey_filter_key _ _ _).trans (if_neg hne)).trans ?_
    exact Option.map_id'.symm ▸ rfl

end Edits

/-! ## Runs -/

section Runs

variable {B : Type} [Platform B] [ComposingNormalizer] {v : Volume LibraryPlace B}
  {call : LibraryCall} {world : OrganizationWorld}

/-- The storage after a call. -/
def LibraryCall.after (world : OrganizationWorld) (v : Volume LibraryPlace B) :
    LibraryCall → Volume LibraryPlace B
  | .createFolder expected name => ((SessionCore.createFolder world expected name).exec v).final v
  | .renameFolder expected folderId name =>
    ((SessionCore.renameFolder world expected folderId name).exec v).final v
  | .deleteFolder expected folderId =>
    ((SessionCore.deleteFolder world expected folderId).exec v).final v
  | .assignMeetingFolder expected meetingId folderId =>
    ((SessionCore.assignMeetingFolder world expected meetingId folderId).exec v).final v
  | .setMeetingTitle expected meetingId title =>
    ((SessionCore.setMeetingTitle world expected meetingId title).exec v).final v
  | .forgetMeeting meetingId => ((SessionCore.forgetMeeting world meetingId).exec v).final v
  | .reinstateMeetingOrganization meetingId title folderId =>
    ((SessionCore.reinstateMeetingOrganization world meetingId title folderId).exec v).final v

/-- The storage after calls one after the other, each in a world of its own. -/
def runCalls (v : Volume LibraryPlace B) (calls : List (LibraryCall × OrganizationWorld)) :
    Volume LibraryPlace B :=
  calls.foldl (fun v c => c.1.after c.2 v) v

/-- The document stays, or the call writes the next revision of it. -/
inductive Organized (call : LibraryCall) (world : OrganizationWorld)
    (v t : Volume LibraryPlace B) : Prop where
  | unchanged (h : readLibraryMetadata t = readLibraryMetadata v)
  | written (old new : MetadataDocument)
      (current : (readLibraryMetadata v).current = .ok old)
      (reads : readLibraryMetadata t = .valid new)
      (expected : ∀ revision ∈ call.expectedRevision?, revision = old.revision)
      (revision : new.revision.toNat = old.revision.toNat + 1)
      (changed : ¬ (new.folders = old.folders ∧ new.meetings = old.meetings))
      (valid : new.validate = true)
      (carries : ∀ row ∈ new.meetings, row.carries = true)
      (frame : call.Frame world old new)

theorem wellFormed_of_current {d : MetadataDocument} (h : (readLibraryMetadata v).current = .ok d) :
    d.WellFormed := by
  have hparsed : ∀ {bytes : B} {parsed : MetadataDocument}, parseMetadata bytes = some parsed →
      parsed.validate = true := by
    intro bytes parsed hparse
    obtain ⟨wire, -, hwire⟩ := Option.bind_eq_some_iff.mp hparse
    split at hwire
    · cases hwire
      assumption
    · cases hwire
  have hmissing : (⟨0, [], []⟩ : MetadataDocument).WellFormed :=
    ⟨List.Pairwise.nil, List.Pairwise.nil, nofun⟩
  unfold readLibraryMetadata at h
  repeat' split at h
  all_goals cases h
  all_goals first
    | exact hmissing
    | exact MetadataDocument.wellFormed_of_validate (hparsed ‹_›)

theorem Mutated.organized {expected : UInt64}
    {edit : Draft → Except OrganizationError (Draft × Option String)} {t : Volume LibraryPlace B}
    (h : Mutated expected edit v t)
    (hexpected : ∀ revision ∈ call.expectedRevision?, revision = expected)
    (hedit : ∀ old edited, old.WellFormed → edit ⟨old.folders, old.meetings⟩ = .ok edited →
      EditFrame call world old edited.1) : Organized call world v t := by
  cases h with
  | unchanged h => exact .unchanged h
  | written old new edited current hexpect edits folders meetings changed revision valid reads =>
    refine .written old new current reads (fun r hr => (hexpected r hr).trans hexpect) revision
      changed valid ?_ ((hedit old edited (wellFormed_of_current current) edits).prune folders meetings)
    intro row hrow
    rw [meetings] at hrow
    exact (List.mem_filter.mp hrow).2

variable [CompactText B]

/-- One call. -/
theorem LibraryCall.after_organized (call : LibraryCall) (world : OrganizationWorld)
    (hv : Shelved v) :
    Shelved (call.after world v) ∧ Organized call world v (call.after world v) := by
  have hnothing : Shelved v ∧ Organized call world v v := ⟨hv, .unchanged rfl⟩
  -- a mutation by an edit that respects the frame
  have hmutate : ∀ (expected : UInt64) edit,
      (∀ revision ∈ call.expectedRevision?, revision = expected) →
      (∀ old edited, old.WellFormed → edit ⟨old.folders, old.meetings⟩ = .ok edited →
        EditFrame call world old edited.1) →
      Meets (mutate world.nonce expected edit) v (fun _ => True)
        (fun _ t => Shelved t ∧ Organized call world v t)
        (fun _ t => Shelved t ∧ Organized call world v t) := by
    intro expected edit hexpected hedit
    exact (mutate_document world.nonce expected edit hv).mono (fun _ h => h)
      (fun _ _ h => ⟨h.1, h.2.organized hexpected hedit⟩)
      fun _ _ h => ⟨h.1, h.2.organized hexpected hedit⟩
  -- the same, where the answer is dropped
  have hmutate' : ∀ (expected : UInt64) edit, call.expectedRevision? = none →
      (∀ old edited, old.WellFormed → edit ⟨old.folders, old.meetings⟩ = .ok edited →
        EditFrame call world old edited.1) →
      Meets (do
          let _ ← Durable.mapError (fun _ => ()) (mutate world.nonce expected edit)
          return ()) v (fun _ => True)
        (fun _ t => Shelved t ∧ Organized call world v t)
        (fun _ t => Shelved t ∧ Organized call world v t) := by
    intro expected edit hnone hedit
    refine (Meets.mapError (hmutate expected edit ?_ hedit)).seq fun _ _ h => Meets.pure h
    intro revision hrevision
    rw [hnone] at hrevision
    cases hrevision
  cases call with
  | createFolder expected =>
    refine Meets.final (C := fun _ => True) (D := fun t => Shelved t ∧ Organized _ world v t) ?_
    unfold SessionCore.createFolder
    refine Meets.bind_lift (fun label _ => ?_) fun _ _ => hnothing
    exact (hmutate expected _ (by rintro _ ⟨⟩; rfl)
      fun old edited hold h => editCreateFolder_frame hold h).seq fun _ _ h => Meets.pure h
  | renameFolder expected =>
    refine Meets.final (C := fun _ => True) (D := fun t => Shelved t ∧ Organized _ world v t) ?_
    unfold SessionCore.renameFolder
    refine Meets.bind_lift (fun _ _ => ?_) fun _ _ => hnothing
    refine Meets.bind_lift (fun label _ => ?_) fun _ _ => hnothing
    exact hmutate expected _ (by rintro _ ⟨⟩; rfl) fun old edited hold h =>
      editRenameFolder_frame hold h
  | deleteFolder expected =>
    refine Meets.final (C := fun _ => True) (D := fun t => Shelved t ∧ Organized _ world v t) ?_
    unfold SessionCore.deleteFolder
    refine Meets.bind_lift (fun _ _ => ?_) fun _ _ => hnothing
    exact hmutate expected _ (by rintro _ ⟨⟩; rfl) fun old edited hold h =>
      editDeleteFolder_frame hold h
  | assignMeetingFolder expected =>
    refine Meets.final (C := fun _ => True) (D := fun t => Shelved t ∧ Organized _ world v t) ?_
    unfold SessionCore.assignMeetingFolder
    refine Meets.bind_lift (fun _ _ => ?_) fun _ _ => hnothing
    refine Meets.bind_lift (fun _ _ => ?_) fun _ _ => hnothing
    apply hmutate expected _ (by rintro _ ⟨⟩; rfl)
    intro old edited hold h
    unfold editAssignMeetingFolder at h
    simp only [bind_eq_ok, pure, Except.pure, Except.ok.injEq] at h
    obtain ⟨-, -, rfl⟩ := h
    exact upsert_frame hold (fun _ => rfl) rfl rfl rfl nofun
  | setMeetingTitle expected =>
    refine Meets.final (C := fun _ => True) (D := fun t => Shelved t ∧ Organized _ world v t) ?_
    unfold SessionCore.setMeetingTitle
    refine Meets.bind_lift (fun _ _ => ?_) fun _ _ => hnothing
    refine Meets.bind_lift (fun label _ => ?_) fun _ _ => hnothing
    apply hmutate expected _ (by rintro _ ⟨⟩; rfl)
    intro old edited hold h
    cases h
    exact upsert_frame hold (fun _ => rfl) rfl rfl rfl nofun
  | forgetMeeting =>
    refine Meets.final (C := fun _ => True) (D := fun t => Shelved t ∧ Organized _ world v t) ?_
    unfold SessionCore.forgetMeeting
    refine Meets.bind_inspect (fun state _ => ?_) fun _ _ => hnothing
    cases state with
    | valid =>
      exact hmutate' _ _ rfl fun old edited hold h => editForgetMeeting_frame hold h
    | missing | unavailable => exact Meets.pure hnothing
  | reinstateMeetingOrganization meetingId title folderId =>
    have hedit : ∀ old edited, MetadataDocument.WellFormed old →
        editReinstate meetingId title folderId ⟨old.folders, old.meetings⟩ = .ok edited →
        EditFrame (.reinstateMeetingOrganization meetingId title folderId) world old edited.1 := by
      intro old edited hold h
      cases h
      exact upsert_frame hold (fun _ => rfl) rfl rfl rfl nofun
    refine Meets.final (C := fun _ => True) (D := fun t => Shelved t ∧ Organized _ world v t) ?_
    unfold SessionCore.reinstateMeetingOrganization
    split
    · exact Meets.pure hnothing
    refine Meets.bind_lift (fun _ _ => ?_) fun _ _ => hnothing
    refine Meets.bind_inspect (fun state _ => ?_) fun _ _ => hnothing
    cases state with
    | unavailable => exact Meets.pure hnothing
    | missing | valid => exact hmutate' _ _ rfl hedit

omit [CompactText B] in
/-- A call with a stale expectation writes nothing. -/
theorem LibraryCall.after_of_stale {d : MetadataDocument} {expected : UInt64}
    (hcurrent : (readLibraryMetadata v).current = .ok d)
    (hexpected : call.expectedRevision? = some expected) (hstale : expected ≠ d.revision) :
    call.after world v = v := by
  have hmutate : ∀ edit, (mutate world.nonce expected edit).exec v =
      ⟨[], .error (.revisionConflict d.revision)⟩ := fun edit => mutate_of_stale hcurrent hstale
  have hlift : ∀ {α β : Type} (answer : Except OrganizationError α)
      (k : α → Durable (Volume LibraryPlace B) OrganizationError β),
      (∀ a, ((k a).exec v).final v = v) → ((Durable.lift answer >>= k).exec v).final v = v := by
    intro α β answer k hk
    cases answer with
    | ok a =>
      rw [Durable.bind_lift_of_ok _ _ rfl]
      exact hk a
    | error =>
      rw [Durable.bind_lift_of_error _ _ rfl]
      rfl
  cases call <;> cases hexpected
  · apply hlift _ _
    intro label
    rw [Durable.bind_of_eq_error _ (hmutate _)]
    rfl
  · refine hlift _ _ fun _ => hlift _ _ fun label => ?_
    rw [hmutate]
    rfl
  · apply hlift _ _
    intro _
    rw [hmutate]
    rfl
  · refine hlift _ _ fun _ => hlift _ _ fun _ => ?_
    rw [hmutate]
    rfl
  · refine hlift _ _ fun _ => hlift _ _ fun label => ?_
    rw [hmutate]
    rfl

theorem shelved_runCalls (calls : List (LibraryCall × OrganizationWorld)) :
    ∀ {v : Volume LibraryPlace B}, Shelved v → Shelved (runCalls v calls) := by
  induction calls with
  | nil => exact fun hv => hv
  | cons c rest ih => exact fun hv => ih (c.1.after_organized c.2 hv).1

omit [CompactText B] in
/-- A document of the writer's own making has no empty row, and then no row but
the addressed one changes. -/
theorem Organized.row_eq {t : Volume LibraryPlace B} (h : Organized call world v t)
    {old new : MetadataDocument} (hold : (readLibraryMetadata v).current = .ok old)
    (hnew : readLibraryMetadata t = .valid new) (htidy : ∀ row ∈ old.meetings, row.carries = true)
    (hcall : ∀ expected folderId, call ≠ .deleteFolder expected folderId) {meetingId : String}
    (hmeeting : call.meeting? ≠ some meetingId) : new.row? meetingId = old.row? meetingId := by
  cases h with
  | unchanged h =>
    rw [hnew] at h
    rw [← h] at hold
    cases hold
    rfl
  | written _ _ current reads _ _ _ _ _ frame =>
    rw [hold, Except.ok.injEq] at current
    rw [hnew, MetadataState.valid.injEq] at reads
    subst current reads
    have hrow := frame.rows meetingId hmeeting
    have hbystander : call.bystander = id := by
      cases call with
      | deleteFolder e folderId => exact absurd rfl (hcall e folderId)
      | _ => rfl
    rw [hrow, hbystander, Option.map_id]
    cases hfound : old.row? meetingId with
    | none => rfl
    | some row =>
      have hcarries := htidy row (lookupKey_some hfound).1
      simp [Option.filter, hcarries]

/-- No row of the document is empty. -/
def Tidy (v : Volume LibraryPlace B) : Prop :=
  ∀ d, readLibraryMetadata v = .valid d → ∀ row ∈ d.meetings, row.carries = true

theorem tidy_runCalls (calls : List (LibraryCall × OrganizationWorld)) :
    ∀ {v : Volume LibraryPlace B}, Shelved v → Tidy v → Tidy (runCalls v calls) := by
  induction calls with
  | nil => exact fun _ htidy => htidy
  | cons c rest ih =>
    intro v hv htidy
    obtain ⟨hshelved, horganized⟩ := c.1.after_organized c.2 hv
    apply ih hshelved
    intro d hd
    cases horganized with
    | unchanged h => exact htidy d (h ▸ hd)
    | written _ _ _ reads _ _ _ _ carries =>
      rw [reads, MetadataState.valid.injEq] at hd
      exact hd ▸ carries

/-- Every interleaving of the calls, from any storage: each call leaves the
document as it is or writes the next revision of it, inside its frame, and a
call with a stale expectation leaves the storage as it is.  The reader takes an
empty row for none at all; where the run began without one, the frame holds row
for row. -/
theorem runCalls_organized {v : Volume LibraryPlace B} (hv : Shelved v)
    (calls : List (LibraryCall × OrganizationWorld)) (call : LibraryCall)
    (world : OrganizationWorld) :
    let before := runCalls v calls
    let after := runCalls v (calls ++ [(call, world)])
    Organized call world before after ∧
      (∀ d, (readLibraryMetadata before).current = .ok d →
        (∃ expected ∈ call.expectedRevision?, expected ≠ d.revision) → after = before) ∧
      (Tidy v → ∀ old new, (readLibraryMetadata before).current = .ok old →
        readLibraryMetadata after = .valid new →
        (∀ expected folderId, call ≠ .deleteFolder expected folderId) →
        ∀ meetingId, call.meeting? ≠ some meetingId → new.row? meetingId = old.row? meetingId) := by
  intro before after
  have hafter : after = call.after world before := List.foldl_append
  have hbefore : Shelved before := shelved_runCalls calls hv
  have horganized := (call.after_organized world hbefore).2
  rw [hafter]
  refine ⟨horganized, ?_, ?_⟩
  · rintro d hd ⟨expected, hexpected, hstale⟩
    exact LibraryCall.after_of_stale hd hexpected hstale
  · intro htidy old new hold hnew hcall meetingId hmeeting
    refine horganized.row_eq hold hnew ?_ hcall hmeeting
    have hread := tidy_runCalls calls hv htidy
    change Tidy before at hread
    revert hold
    unfold Tidy at hread
    cases hstate : readLibraryMetadata before with
    | missing =>
      intro hold
      cases hold
      exact nofun
    | valid d =>
      intro hold
      cases hold
      exact hread _ hstate
    | unavailable => nofun

end Runs

/-! A folder, a title and the deletion of the folder, from an empty storage
root. -/

/-- A normalizer for labels that are in NFC already. -/
instance composedNormalizer : ComposingNormalizer := ⟨id⟩

def emptyLibrary : Volume LibraryPlace (Recorded []) :=
  (∅ : Volume LibraryPlace (Recorded [])).place .root (.directory 0o700)

def sampleWorld : OrganizationWorld where
  recordPresent id := id == "meeting-a"
  folderId := sampleMeetingId
  nonce := sampleOperationId

def filedMeeting : List (LibraryCall × OrganizationWorld) :=
  [(.createFolder 0 "Clients", sampleWorld),
    (.setMeetingTitle 1 "meeting-a" (some "Kickoff"), sampleWorld),
    (.assignMeetingFolder 2 "meeting-a" (some sampleMeetingId.text), sampleWorld)]

theorem runCalls_organized_filed :
    readLibraryMetadata (runCalls emptyLibrary filedMeeting) =
      .valid ⟨3, [⟨sampleMeetingId.text, "Clients"⟩],
        [⟨"meeting-a", some "Kickoff", some sampleMeetingId.text⟩]⟩ ∧
    Organized (.deleteFolder 3 sampleMeetingId.text) sampleWorld
      (runCalls emptyLibrary filedMeeting)
      (runCalls emptyLibrary (filedMeeting ++
        [(.deleteFolder 3 sampleMeetingId.text, sampleWorld)])) :=
  ⟨by decide +kernel, (runCalls_organized (by unfold Shelved; decide) _ _ _).1⟩

end YawnApp.SessionCore
