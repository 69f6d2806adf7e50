import YawnApp.SessionCore.MeetingDirectory

set_option autoImplicit false

/-!
# Where the artifacts of a record are

The path of every reference of a valid record is fixed by its role, up to the
name of a transcript or a note.  None of them is more than two components deep,
so a program that only works below the operation directories of the meeting
leaves them all alone.
-/

namespace YawnApp.SessionCore

open YawnApp.Foundation List

variable {B : Type} {r : ArtifactRef} {path : String}

/-- The components of an artifact that is named by its digest. -/
theorem components_digestNamed {directory digest extension : String}
    (hdirectory : '/' ∉ directory.toList) (hname : directory.toList ∉ [[], ['.']])
    (hdigest : validSha256 digest = true) (hextension : '/' ∉ extension.toList) :
    components (directory ++ "/" ++ digest ++ "." ++ extension) =
      [directory, digest ++ "." ++ extension] := by
  have hpath : (directory ++ "/" ++ digest ++ "." ++ extension).toList =
      directory.toList ++ '/' :: (digest.toList ++ '.' :: extension.toList) := by
    simp [String.toList_append]
  have hfile : '/' ∉ digest.toList ++ '.' :: extension.toList := by
    simp only [mem_append, mem_cons, not_or]
    exact ⟨slash_not_mem_of_validSha256 hdigest, by decide, hextension⟩
  have hlength : digest.toList.length = 64 := by
    unfold validSha256 at hdigest
    rw [Bool.and_eq_true, beq_iff_eq] at hdigest
    exact hdigest.1
  have hparts : digest.toList ++ '.' :: extension.toList ∉ [[], ['.']] := by
    intro hmem
    have hshort : (digest.toList ++ '.' :: extension.toList).length ≤ 1 := by
      simp only [mem_cons, not_mem_nil, or_false] at hmem
      rcases hmem with heq | heq <;> rw [heq] <;> simp
    simp only [length_append, length_cons] at hshort
    omega
  simp only [mem_cons, not_mem_nil, or_false, not_or] at hname hparts
  unfold components
  rw [hpath, splitOn_append_cons_self_of_not_mem hdirectory, splitOn_eq_singleton hfile]
  simp only [filter_cons, filter_nil, bne_iff_ne, ne_eq, Bool.and_eq_true, hname, hparts,
    not_false_eq_true, and_self, if_true, map_cons, map_nil]
  refine congrArg₂ List.cons (String.ofList_toList) (congrArg₂ List.cons ?_ rfl)
  rw [← String.toList_inj]
  simp [String.toList_append]

/-- The place of a reference, by its role. -/
inductive ReferencePlace : List String → Prop
  | attempt : ReferencePlace ["attempt.json"]
  | ownership : ReferencePlace ["ownership.json"]
  | session : ReferencePlace ["capture", "session.json"]
  | audio (file : String)
      (h : file ∈ ["mic.wav", "system.wav", ".mic.wav.partial", ".system.wav.partial"]) :
      ReferencePlace ["capture", file]
  | transcript (file : String) : ReferencePlace ["transcript", file]
  | note (file : String) : ReferencePlace ["notes", file]
  | deletionReceipt : ReferencePlace ["deletion", "audio-deletion.json"]

theorem validateRef_eq_ok :
    validateRef r path = .ok () ↔ r.relativePath = path ∧ validSha256 r.sha256 = true := by
  unfold validateRef validateSha256
  simp only [check_bind_eq_ok, refuseIf_eq_ok, not_not]

theorem components_of_validateDigestNamed {directory extension : String}
    (h : r.validateDigestNamed directory extension = .ok ()) (hdirectory : '/' ∉ directory.toList)
    (hname : directory.toList ∉ [[], ['.']]) (hextension : '/' ∉ extension.toList) :
    components r.relativePath = [directory, r.sha256 ++ "." ++ extension] := by
  unfold ArtifactRef.validateDigestNamed at h
  rw [check_bind_eq_ok, validateRef_eq_ok] at h
  rw [h.2.1]
  exact components_digestNamed hdirectory hname h.2.2 hextension

theorem referencePlace_of_validateAudioRef {canonical held : String} {allow : Bool}
    (h : validateAudioRef r canonical held allow = .ok ())
    (hcanonical : ReferencePlace (components canonical)) (hheld : ReferencePlace (components held)) :
    ReferencePlace (components r.relativePath) := by
  unfold validateAudioRef at h
  rw [check_bind_eq_ok, refuseIf_eq_ok, not_not] at h
  rcases h.1 with hpath | ⟨-, hpath⟩
  · rwa [hpath]
  · rwa [hpath]

/-- The four paths a track can have. -/
theorem components_audio :
    components microphoneAudioPath = ["capture", "mic.wav"] ∧
      components systemAudioPath = ["capture", "system.wav"] ∧
      components microphonePartialAudioPath = ["capture", ".mic.wav.partial"] ∧
      components systemPartialAudioPath = ["capture", ".system.wav.partial"] := by
  decide

section Platform

variable [Platform B]

/-- Every reference of a valid record has the place of its role. -/
theorem MeetingRecord.Valid.place {m : MeetingRecord} {directoryId : String}
    (h : m.Valid B directoryId) : ∀ r ∈ m.references, ReferencePlace (components r.relativePath) := by
  have hreferences := h.references
  unfold MeetingRecord.validateReferences at hreferences
  simp only [check_bind_eq_ok, checkSome_eq_ok] at hreferences
  obtain ⟨hattempt, hownership, hsession, hmic, hsystem, htranscript, hnote⟩ := hreferences
  obtain ⟨hmicPath, hsystemPath, hmicPartial, hsystemPartial⟩ := components_audio
  have hfixed : ∀ {r : ArtifactRef} {path : String} {place : List String},
      validateRef r path = .ok () → components path = place → ReferencePlace place →
        ReferencePlace (components r.relativePath) := by
    intro r path place href hplace h
    rwa [(validateRef_eq_ok.mp href).1, hplace]
  unfold MeetingRecord.references
  simp only [mem_append, mem_singleton, mem_flatMap, or_imp, forall_and, forall_eq]
  refine ⟨⟨⟨⟨⟨⟨?_, ?_⟩, ?_⟩, ?_⟩, ?_⟩, ?_⟩, ?_⟩
  · exact hfixed hattempt (by decide) .attempt
  · exact fun r hr => hfixed (hownership r hr) (by decide) .ownership
  · exact fun r hr => hfixed (hsession r hr) (by decide) .session
  · intro r hr
    rw [components_of_validateDigestNamed (htranscript r hr) (by decide) (by decide) (by decide)]
    exact .transcript _
  · rintro r ⟨note, hn, hr⟩
    have hvalid := hnote note hn
    unfold NoteRevisionRef.validate at hvalid
    simp only [check_bind_eq_ok] at hvalid
    rcases mem_pair.mp hr with rfl | rfl
    · rw [components_of_validateDigestNamed hvalid.1 (by decide) (by decide) (by decide)]
      exact .note _
    · rw [components_of_validateDigestNamed hvalid.2.1 (by decide) (by decide) (by decide)]
      exact .note _
  · intro r hr
    split at hr
    · obtain ⟨track, htrack, hsome⟩ := mem_filterMap.mp hr
      rcases mem_pair.mp htrack with rfl | rfl
      · refine referencePlace_of_validateAudioRef (hmic r (by simpa using hsome)) ?_ ?_
        · rw [hmicPath]
          exact .audio _ (by simp)
        · rw [hmicPartial]
          exact .audio _ (by simp)
      · refine referencePlace_of_validateAudioRef (hsystem r (by simpa using hsome)) ?_ ?_
        · rw [hsystemPath]
          exact .audio _ (by simp)
        · rw [hsystemPartial]
          exact .audio _ (by simp)
    · cases hr
  · exact fun r hr => hfixed (h.deletionReceipt_ref r hr) (by decide) .deletionReceipt

end Platform

/-! ## Reading at a place -/

/-- What is kept of the places that a read looks at is read as before. -/
theorem ArtifactTree.reader_of_keeps {kept : MeetingPath → Prop} {old new : ArtifactTree B}
    (h : Keeps kept old new) (hfile : kept (.entry (components path)))
    (habove : ∀ directory ∈ (MeetingPath.above (components path)).tail, kept (.entry directory))
    {bytes : B} (hread : old.reader path = .ok bytes) : new.reader path = .ok bytes := by
  unfold ArtifactTree.reader at hread ⊢
  rw [check_bind_eq_ok, forM_eq_ok] at hread ⊢
  obtain ⟨hdirs, hopen⟩ := hread
  refine ⟨fun directory hdirectory => ?_, ?_⟩
  · obtain ⟨mode, hnode, hmode⟩ := requirePrivateDirectory_eq_ok.mp (hdirs directory hdirectory)
    obtain ⟨mode', hnode', hmode'⟩ := h.directory _ (habove directory hdirectory) mode hnode
    refine requirePrivateDirectory_eq_ok.mpr ⟨mode', hnode', ?_⟩
    rcases hmode' with rfl | rfl
    · exact hmode
    · rfl
  · unfold openPrivateFile at hopen ⊢
    cases hnode : Volume.node old (.entry (components path)) with
    | none => rw [hnode] at hopen; cases hopen
    | some n =>
      rw [hnode] at hopen
      cases n with
      | file mode found =>
        rw [h.file _ hfile mode found hnode]
        exact hopen
      | symlink | directory => cases hopen

/-- The places of references and of the directories above them. -/
def Shallow : MeetingPath → Prop
  | .entry components => components.length ≤ 2
  | .temporary _ _ => False

theorem ReferencePlace.shallow {place : List String} (h : ReferencePlace place) :
    Shallow (.entry place) ∧
      ∀ directory ∈ (MeetingPath.above place).tail, Shallow (.entry directory) := by
  cases h <;> simp [Shallow, MeetingPath.above]

theorem Keeps.isPrivate {kept : MeetingPath → Prop} {old new : ArtifactTree B} (h : Keeps kept old new)
    {p : MeetingPath} (hp : kept p) (hprivate : requirePrivateDirectory old p = .ok ()) :
    requirePrivateDirectory new p = .ok () := by
  obtain ⟨mode, hnode, hmode⟩ := requirePrivateDirectory_eq_ok.mp hprivate
  obtain ⟨mode', hnode', hmode'⟩ := h.directory p hp mode hnode
  refine requirePrivateDirectory_eq_ok.mpr ⟨mode', hnode', ?_⟩
  rcases hmode' with rfl | rfl
  · exact hmode
  · rfl

theorem ReferencePlace.ne_record (h : ReferencePlace (components path)) :
    path ≠ "meeting.json" := by
  rintro rfl
  have hplace : components "meeting.json" = ["meeting.json"] := by decide
  rw [hplace] at h
  generalize hfile : "meeting.json" = file at h
  cases h <;> exact absurd hfile (by decide)

section Reading

variable [Platform B]

theorem verifyArtifactRef_of_read {old new : Reader B} {r : ArtifactRef}
    (hread : ∀ bytes, old r.relativePath = .ok bytes → new r.relativePath = .ok bytes)
    (h : verifyArtifactRef old r = .ok ()) : verifyArtifactRef new r = .ok () := by
  unfold verifyArtifactRef hashArtifact at h ⊢
  simp only [bind_eq_ok] at h ⊢
  obtain ⟨digest, ⟨u, hsafe, bytes, hbytes, hdigest⟩, hsame⟩ := h
  exact ⟨digest, ⟨u, hsafe, bytes, hread bytes hbytes, hdigest⟩, hsame⟩

/-- An artifact is read again after work that keeps the shallow places. -/
theorem verifyArtifactRef_of_shallow {m t : MeetingDirectory B} (hkeeps : Keeps Shallow m.tree t.tree)
    {r : ArtifactRef} (hplace : ReferencePlace (components r.relativePath))
    (h : verifyArtifactRef m.reader r = .ok ()) : verifyArtifactRef t.reader r = .ok () := by
  refine verifyArtifactRef_of_read (fun bytes hbytes => ?_) h
  unfold MeetingDirectory.reader at hbytes ⊢
  rw [if_neg hplace.ne_record] at hbytes ⊢
  exact ArtifactTree.reader_of_keeps hkeeps hplace.shallow.1 hplace.shallow.2 hbytes

/-- So are all the artifacts of a record. -/
theorem verifyRecordArtifacts_of_shallow {m t : MeetingDirectory B} {meeting : MeetingRecord}
    {directoryId : String} (hvalid : meeting.Valid B directoryId)
    (hlifecycle : meeting.lifecycle ≠ .recoveredInterrupted) (hkeeps : Keeps Shallow m.tree t.tree)
    (h : verifyRecordArtifacts m.reader meeting = .ok ()) :
    verifyRecordArtifacts t.reader meeting = .ok () := by
  rw [verifyRecordArtifacts_eq_ok hlifecycle] at h ⊢
  exact fun r hr => verifyArtifactRef_of_shallow hkeeps (hvalid.place r hr) (h r hr)

end Reading

end YawnApp.SessionCore
