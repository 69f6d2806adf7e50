import YawnApp.SessionCore.Library
import YawnApp.SessionCore.ReceiptSizes

set_option autoImplicit false

/-!
# Artifacts that are kept

The artifacts of a meeting are written once and never change; only the record
`meeting.json` is replaced.  So a check of artifacts that passed once passes
again after any work that only adds files, and after the record was replaced.
This module says which files the checks of a record look at and that none of
them is the record itself.
-/

namespace YawnApp.SessionCore

open YawnApp.Foundation List

variable {B : Type}

/-- Every file of `old` but the record is in `new` as it was. -/
def Files.KeepsArtifacts (old new : Files B) : Prop :=
  ∀ path, path ≠ "meeting.json" → ∀ bytes, old path = some bytes → new path = some bytes

namespace Files

theorem KeepsArtifacts.refl (files : Files B) : files.KeepsArtifacts files := fun _ _ _ h => h

theorem KeepsArtifacts.trans {a b c : Files B} (hab : a.KeepsArtifacts b)
    (hbc : b.KeepsArtifacts c) : a.KeepsArtifacts c :=
  fun path hpath bytes h => hbc path hpath bytes (hab path hpath bytes h)

theorem Extends.keepsArtifacts {old new : Files B} (h : old.Extends new) :
    old.KeepsArtifacts new := fun path _ bytes hbytes => h path bytes hbytes

/-- Replacing the record keeps the artifacts. -/
theorem keepsArtifacts_put (files : Files B) (bytes : B) :
    files.KeepsArtifacts (files.put "meeting.json" bytes) :=
  fun _ hpath _ h => by rwa [put_of_ne _ hpath]

theorem reader_eq_ok {files : Files B} {path : String} {bytes : B} :
    files.reader path = .ok bytes ↔ files path = some bytes := orRefuse_eq_ok

end Files

/-- Whatever `old` reads below the meeting directory, the record left out, is
read by `new` as well. -/
def Reader.KeepsArtifacts (old new : Reader B) : Prop :=
  ∀ path, path ≠ "meeting.json" → ∀ bytes, old path = .ok bytes → new path = .ok bytes

theorem Reader.KeepsArtifacts.trans {a b c : Reader B} (hab : a.KeepsArtifacts b)
    (hbc : b.KeepsArtifacts c) : a.KeepsArtifacts c :=
  fun path hpath bytes h => hbc path hpath bytes (hab path hpath bytes h)

theorem Files.KeepsArtifacts.reader {old new : Files B} (h : old.KeepsArtifacts new) :
    old.reader.KeepsArtifacts new.reader :=
  fun path hpath bytes hread => Files.reader_eq_ok.mpr (h path hpath bytes (Files.reader_eq_ok.mp hread))

/-! ## Paths -/

theorem slash_not_mem_of_validSha256 {digest : String} (h : validSha256 digest = true) :
    '/' ∉ digest.toList := by
  unfold validSha256 at h
  rw [Bool.and_eq_true, all_eq_true] at h
  exact fun hmem => absurd (h.2 _ hmem) (by decide)

/-- A path of one directory and a name made of a digest is safe. -/
theorem isSafeArtifactPath_digestNamed {directory digest extension : String}
    (hdirectory : '/' ∉ directory.toList) (hname : directory.toList ∉ [[], ['.'], ['.', '.']])
    (hdigest : validSha256 digest = true) (hextension : '/' ∉ extension.toList) :
    isSafeArtifactPath (directory ++ "/" ++ digest ++ "." ++ extension) = true := by
  have hpath : (directory ++ "/" ++ digest ++ "." ++ extension).toList =
      directory.toList ++ '/' :: (digest.toList ++ '.' :: extension.toList) := by
    simp [String.toList_append]
  have hfile : '/' ∉ digest.toList ++ '.' :: extension.toList := by
    simp only [mem_append, mem_cons, not_or]
    exact ⟨slash_not_mem_of_validSha256 hdigest, by decide, hextension⟩
  have hlength : digest.toList.length = 64 := by
    unfold validSha256 at hdigest
    rw [Bool.and_eq_true, beq_iff_eq] at hdigest
    exact hdigest.1
  have hdots : ['.', '.'] ≠ digest.toList ++ '.' :: extension.toList := by
    intro heq
    have := congrArg List.length heq
    simp only [length_cons, length_nil, length_append] at this
    omega
  simp only [mem_cons, not_mem_nil, or_false, not_or] at hname
  unfold isSafeArtifactPath
  simp only [hpath, splitOn_append_cons_self_of_not_mem hdirectory,
    splitOn_eq_singleton hfile]
  simp only [List.head?_append, List.head?_cons, Bool.and_eq_true, bne_iff_ne, ne_eq,
    Bool.not_eq_true', contains_eq_mem, decide_eq_false_iff_not, mem_cons,
    not_mem_nil, or_false, not_or, Option.some.injEq]
  refine ⟨⟨?_, fun h => hname.2.2 h.symm, hdots⟩, hname.2.1⟩
  cases hchars : directory.toList with
  | nil => exact absurd hchars hname.1
  | cons =>
    rw [hchars] at hdirectory
    simp only [List.head?_cons, Option.some_or, Option.some.injEq]
    rintro rfl
    exact hdirectory mem_cons_self

theorem revisionPath_eq (digest : String) :
    revisionPath digest = "transcript" ++ "/" ++ digest ++ "." ++ "json" := by
  have hdirectory : "transcript" ++ "/" = "transcript/" := by decide
  have hextension : "." ++ "json" = ".json" := by decide
  rw [hdirectory, String.append_assoc, hextension]
  rfl

theorem revisionPath_ne_record (digest : String) : revisionPath digest ≠ "meeting.json" := by
  intro h
  have hhead := congrArg (fun s => s.toList.head?) h
  simp [revisionPath, String.toList_append] at hhead

/-! ## What the checks of a record look at -/

/-- Every reference of a record that its check follows. -/
def MeetingRecord.references (m : MeetingRecord) : List ArtifactRef :=
  [m.artifacts.attempt] ++ m.artifacts.ownership.toList ++ m.artifacts.captureSession.toList ++
    m.artifacts.currentTranscript.toList ++
    (m.artifacts.currentNote.toList.flatMap fun note => [note.json, note.markdown]) ++
    (if m.retention.state = .retained then audioReferences m else []) ++
    m.retention.deletionReceipt.toList

theorem checkSome_eq_ok {α ε : Type} {o : Option α} {check : α → Except ε Unit} {u : Unit} :
    checkSome o check = .ok u ↔ ∀ a ∈ o.toList, check a = .ok () := by
  cases o <;> simp

section Platform

variable [Platform B] {r : ArtifactRef} {m : MeetingRecord} {directoryId : String}
  {old new : Files B} {read : Reader B}

/-- Of a record that is not an interrupted one, the check follows its references
and nothing else. -/
theorem verifyRecordArtifacts_eq_ok (h : m.lifecycle ≠ .recoveredInterrupted) :
    verifyRecordArtifacts read m = .ok () ↔ ∀ r ∈ m.references, verifyArtifactRef read r = .ok () := by
  have hnote : checkSome m.artifacts.currentNote (fun note => do
        verifyArtifactRef read note.json
        verifyArtifactRef read note.markdown) = .ok () ↔
      ∀ r ∈ m.artifacts.currentNote.toList.flatMap fun note => [note.json, note.markdown],
        verifyArtifactRef read r = .ok () := by
    cases m.artifacts.currentNote with
    | none => simp
    | some =>
      rw [checkSome_some, check_bind_eq_ok]
      simp
  have haudio : (if m.retention.state = .retained then
        (audioReferences m).forM (verifyArtifactRef read) else pure ()) = .ok () ↔
      ∀ r ∈ if m.retention.state = .retained then audioReferences m else [],
        verifyArtifactRef read r = .ok () := by
    split
    · exact forM_eq_ok
    · simp [pure, Except.pure]
  unfold verifyRecordArtifacts verifyRecordStaticArtifacts MeetingRecord.references
  simp only [if_neg h, mem_append, mem_singleton, or_imp, forall_and, forall_eq]
  rw [← hnote, ← haudio, ← checkSome_eq_ok (u := ()), ← checkSome_eq_ok (u := ()),
    ← checkSome_eq_ok (u := ()), ← checkSome_eq_ok (u := ())]
  split
  · simp only [check_bind_eq_ok, and_assoc]
  · simp only [check_bind_eq_ok, and_assoc, pure, Except.pure, true_and]

theorem verifyArtifactRef_of_keeps {old new : Reader B} (hkeeps : old.KeepsArtifacts new)
    (hpath : r.relativePath ≠ "meeting.json") (h : verifyArtifactRef old r = .ok ()) :
    verifyArtifactRef new r = .ok () := by
  unfold verifyArtifactRef hashArtifact at h ⊢
  simp only [bind_eq_ok] at h ⊢
  obtain ⟨digest, ⟨u, hsafe, bytes, hbytes, hdigest⟩, hsame⟩ := h
  exact ⟨digest, ⟨u, hsafe, bytes, hkeeps _ hpath _ hbytes, hdigest⟩, hsame⟩

/-! ### None of them is the record -/

section

omit [Platform B]

theorem path_ne_of_validateDigestNamed {directory extension : String}
    (h : r.validateDigestNamed directory extension = .ok ())
    (hdirectory : directory.toList.head? ∉ [none, some 'm']) : r.relativePath ≠ "meeting.json" := by
  unfold ArtifactRef.validateDigestNamed validateRef at h
  simp only [bind_eq_ok, refuseIf_eq_ok, not_not] at h
  obtain ⟨_, -, _, hpath, -⟩ := h
  rw [hpath]
  intro heq
  have hhead := congrArg (fun s => s.toList.head?) heq
  simp only [String.toList_append, append_assoc, List.head?_append] at hhead
  simp only [mem_cons, not_mem_nil, or_false, not_or] at hdirectory
  cases hchar : directory.toList.head? with
  | none => exact hdirectory.1 hchar
  | some =>
    rw [hchar, Option.some_or] at hhead
    exact hdirectory.2 (hchar.trans hhead)

theorem path_ne_of_validateRef {path : String} (h : validateRef r path = .ok ())
    (hpath : path ≠ "meeting.json") : r.relativePath ≠ "meeting.json" := by
  unfold validateRef at h
  simp only [bind_eq_ok, refuseIf_eq_ok, not_not] at h
  obtain ⟨_, heq, -⟩ := h
  exact heq ▸ hpath

theorem path_ne_of_validateAudioRef {canonical held : String} {allow : Bool}
    (h : validateAudioRef r canonical held allow = .ok ()) (hcanonical : canonical ≠ "meeting.json")
    (hheld : held ≠ "meeting.json") : r.relativePath ≠ "meeting.json" := by
  unfold validateAudioRef at h
  simp only [bind_eq_ok, refuseIf_eq_ok, not_not] at h
  obtain ⟨_, hpath, -⟩ := h
  rcases hpath with heq | ⟨-, heq⟩
  · exact heq ▸ hcanonical
  · exact heq ▸ hheld

end

/-- A deletion receipt stands only in a record whose audio is released, at its
own place. -/
theorem MeetingRecord.Valid.deletionReceipt_ref (h : m.Valid B directoryId) :
    ∀ r ∈ m.retention.deletionReceipt.toList,
      validateRef r "deletion/audio-deletion.json" = .ok () := by
  intro r hr
  have hsome : m.retention.deletionReceipt = some r := by simpa using hr
  have hstate := h.audioState
  unfold MeetingRecord.validateAudioState at hstate
  cases hs : m.retention.state with
  | released =>
    simp only [hs, bind_eq_ok, orRefuse_eq_ok] at hstate
    obtain ⟨receipt, hreceipt, _, href, -⟩ := hstate
    rw [hsome, Option.some.injEq] at hreceipt
    exact hreceipt ▸ href
  | neverCreated | retained | deleting => simp [hs, hsome] at hstate

theorem MeetingRecord.Valid.deletionReceipt (h : m.Valid B directoryId) :
    ∀ r ∈ m.retention.deletionReceipt.toList,
      r.relativePath ≠ "meeting.json" :=
  fun r hr => path_ne_of_validateRef (h.deletionReceipt_ref r hr) (by decide)

/-- No reference of a valid record is the record. -/
theorem MeetingRecord.Valid.path_ne (h : m.Valid B directoryId) :
    ∀ r ∈ m.references, r.relativePath ≠ "meeting.json" := by
  have hreferences := h.references
  unfold MeetingRecord.validateReferences at hreferences
  simp only [check_bind_eq_ok, checkSome_eq_ok] at hreferences
  obtain ⟨hattempt, hownership, hsession, hmic, hsystem, htranscript, hnote⟩ := hreferences
  unfold MeetingRecord.references
  simp only [mem_append, mem_singleton, mem_flatMap, or_imp, forall_and, forall_eq]
  refine ⟨⟨⟨⟨⟨⟨?_, ?_⟩, ?_⟩, ?_⟩, ?_⟩, ?_⟩, h.deletionReceipt⟩
  · exact path_ne_of_validateRef hattempt (by decide)
  · exact fun r hr => path_ne_of_validateRef (hownership r hr) (by decide)
  · exact fun r hr => path_ne_of_validateRef (hsession r hr) (by decide)
  · exact fun r hr => path_ne_of_validateDigestNamed (htranscript r hr) (by decide)
  · rintro r ⟨note, hn, hr⟩
    have hvalid := hnote note hn
    unfold NoteRevisionRef.validate at hvalid
    simp only [check_bind_eq_ok] at hvalid
    rcases mem_pair.mp hr with rfl | rfl
    · exact path_ne_of_validateDigestNamed hvalid.1 (by decide)
    · exact path_ne_of_validateDigestNamed hvalid.2.1 (by decide)
  · intro r hr
    split at hr
    · obtain ⟨track, htrack, hsome⟩ := mem_filterMap.mp hr
      rcases mem_pair.mp htrack with rfl | rfl
      · exact path_ne_of_validateAudioRef (hmic r (by simpa using hsome)) (by decide) (by decide)
      · exact path_ne_of_validateAudioRef (hsystem r (by simpa using hsome)) (by decide) (by decide)
    · cases hr

/-- The check of a record passes again after files were added or the record was
replaced. -/
theorem verifyRecordArtifacts_of_keeps {old new : Reader B} (hvalid : m.Valid B directoryId)
    (hlifecycle : m.lifecycle ≠ .recoveredInterrupted) (hkeeps : old.KeepsArtifacts new)
    (h : verifyRecordArtifacts old m = .ok ()) : verifyRecordArtifacts new m = .ok () := by
  rw [verifyRecordArtifacts_eq_ok hlifecycle] at h ⊢
  exact fun r hr => verifyArtifactRef_of_keeps hkeeps (hvalid.path_ne r hr) (h r hr)

theorem verifyRecordArtifacts_mono (hvalid : m.Valid B directoryId)
    (hlifecycle : m.lifecycle ≠ .recoveredInterrupted) (hkeeps : old.KeepsArtifacts new)
    (h : verifyRecordArtifacts old.reader m = .ok ()) :
    verifyRecordArtifacts new.reader m = .ok () :=
  verifyRecordArtifacts_of_keeps hvalid hlifecycle hkeeps.reader h

/-! ## The record -/

/-- The record is read from one file. -/
theorem loadMeeting_congr (h : new "meeting.json" = old "meeting.json") (directoryId : String) :
    loadMeeting new.reader directoryId = loadMeeting old.reader directoryId := by
  unfold loadMeeting readBounded Files.reader
  rw [h]

theorem loadMeeting_eq_ok (h : loadMeeting read directoryId = .ok m) :
    m.validate B directoryId = .ok () := by
  unfold loadMeeting at h
  simp only [bind_eq_ok] at h
  obtain ⟨bytes, -, meeting, -, _, hvalid, heq⟩ := h
  cases heq
  exact hvalid

theorem isSome_of_loadMeeting {files : Files B} (h : loadMeeting files.reader directoryId = .ok m) :
    (files "meeting.json").isSome := by
  unfold loadMeeting readBounded at h
  simp only [bind_eq_ok, Files.reader_eq_ok] at h
  obtain ⟨bytes, ⟨found, hfound, -⟩, -⟩ := h
  rw [hfound]
  rfl

/-- A valid record that was written is read back. -/
theorem loadMeeting_of_read {id : String} (hvalid : m.validate B id = .ok ())
    (h : read "meeting.json" = .ok (toVecPretty m)) : loadMeeting read id = .ok m := by
  unfold loadMeeting readBounded
  simp only [bind_eq_ok, orRefuse_eq_ok, refuseIf_eq_ok, Nat.not_lt]
  exact ⟨toVecPretty m, ⟨_, h, (), MeetingRecord.fits hvalid, rfl⟩, m, fromSlice_toVecPretty m, (),
    hvalid, rfl⟩

theorem loadMeeting_of_written {files : Files B} {id : Uuid}
    (hvalid : m.validate B id.text = .ok ()) (h : files "meeting.json" = some (toVecPretty m)) :
    loadMeeting files.reader id.text = .ok m :=
  loadMeeting_of_read hvalid (Files.reader_eq_ok.mpr h)

/-- A transcript revision is read again as it was. -/
theorem inspectRevision_keeps [DecidableEq B] {meetingId : Uuid} {digest : String}
    {x : InspectedTranscriptRevision} (hkeeps : old.KeepsArtifacts new)
    (h : inspectRevision old.reader meetingId digest = .ok x) :
    inspectRevision new.reader meetingId digest = .ok x :=
  inspectRevision_mono (fun digest _ _ hbytes => Files.reader_eq_ok.mpr
    (hkeeps _ (revisionPath_ne_record digest) _ (Files.reader_eq_ok.mp hbytes))) h

end Platform

end YawnApp.SessionCore
