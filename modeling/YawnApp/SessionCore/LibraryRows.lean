import YawnApp.SessionCore.LibraryIsolation

set_option autoImplicit false

/-!
# The rows of a library build

Whatever lies in the storage, the identifiers, digests and labels of the rows
that a build returns are texts without control characters.
-/

namespace YawnApp.SessionCore

open YawnApp.Foundation List

namespace LibraryRead

/-! ## Plain texts -/

/-- A text without control characters. -/
def Plain (text : String) : Prop := ∀ c ∈ text.toList, isControl c = false

theorem isControl_of_isLowerHex {c : Char} (h : isLowerHex c = true) : isControl c = false := by
  unfold isLowerHex at h
  unfold isControl
  simp only [Bool.or_eq_true, Bool.and_eq_true, decide_eq_true_eq, Char.le_def,
    UInt32.le_iff_toNat_le] at h
  simp only [Bool.or_eq_false_iff, Bool.and_eq_false_iff, decide_eq_false_iff_not, Char.toNat]
  have h0 : '0'.val.toNat = 48 := rfl
  have h9 : '9'.val.toNat = 57 := rfl
  have ha : 'a'.val.toNat = 97 := rfl
  have hf : 'f'.val.toNat = 102 := rfl
  omega

theorem isControl_of_isOpaqueIdChar {c : Char} (h : isOpaqueIdChar c = true) :
    isControl c = false := by
  unfold isOpaqueIdChar Char.isAlphanum Char.isAlpha Char.isUpper Char.isLower Char.isDigit at h
  unfold isControl
  simp only [Bool.or_eq_true, Bool.and_eq_true, decide_eq_true_eq, beq_iff_eq, ge_iff_le,
    UInt32.le_iff_toNat_le] at h
  simp only [Bool.or_eq_false_iff, Bool.and_eq_false_iff, decide_eq_false_iff_not, Char.toNat]
  rcases h with ((((h | h) | h) | rfl) | rfl)
  all_goals first | decide | skip
  all_goals
    have hA : 'A'.val.toNat = 65 := rfl
    have hZ : 'Z'.val.toNat = 90 := rfl
    have ha : 'a'.val.toNat = 97 := rfl
    have hz : 'z'.val.toNat = 122 := rfl
    have h0 : '0'.val.toNat = 48 := rfl
    have h9 : '9'.val.toNat = 57 := rfl
    omega

variable {text : String}

theorem plain_of_validSha256 (h : validSha256 text = true) : Plain text := by
  unfold validSha256 at h
  rw [Bool.and_eq_true, all_eq_true] at h
  exact fun c hc => isControl_of_isLowerHex (h.2 c hc)

theorem plain_of_validOpaqueId (h : validOpaqueId text = true) : Plain text := by
  unfold validOpaqueId at h
  rw [Bool.and_eq_true, all_eq_true] at h
  exact fun c hc => isControl_of_isOpaqueIdChar (h.2 c hc)

theorem plain_of_validLabel [ComposingNormalizer] (h : validLabel text = true) : Plain text := by
  unfold validLabel at h
  rw [Bool.and_eq_true, Bool.not_eq_true', any_eq_false] at h
  intro c hc
  have hnot := h.2 c hc
  simp only [Bool.or_eq_true, not_or, Bool.not_eq_true] at hnot
  exact hnot.1.1.1.1

/-- The texts of a row that come from names, digests and labels. -/
structure LibraryRow.IsPlain (row : LibraryRow) : Prop where
  meetingId : Plain row.meetingId
  meetingRecord : Plain row.meetingRecordSha256
  attempt : Plain row.attemptSha256
  transcript : ∀ text, row.transcriptSha256 = some text → Plain text
  noteJson : ∀ text, row.noteJsonSha256 = some text → Plain text
  noteMarkdown : ∀ text, row.noteMarkdownSha256 = some text → Plain text
  title : ∀ text, row.title = some text → Plain text
  folder : ∀ text, row.folder = some text → Plain text

/-! ## Inspected rows -/

section Inspected

variable {B : Type} [Platform B]

theorem validSha256_of_artifactRef {read : Reader B} {path : String} {reference : ArtifactRef}
    (h : artifactRef read path = .ok reference) : validSha256 reference.sha256 = true := by
  unfold artifactRef hashArtifact at h
  simp only [bind_eq_ok] at h
  obtain ⟨digest, ⟨_, -, bytes, -, hdigest⟩, hreference⟩ := h
  cases hdigest
  cases hreference
  exact Platform.validSha256_sha256 bytes

theorem validSha256_of_validateDigestNamed {reference : ArtifactRef} {directory extension : String}
    (h : reference.validateDigestNamed directory extension = .ok ()) :
    validSha256 reference.sha256 = true := by
  unfold ArtifactRef.validateDigestNamed validateSha256 at h
  rw [check_bind_eq_ok, refuseIf_eq_ok, not_not] at h
  exact h.1

variable [DecidableEq B] {limits : ReadLimits} {source : ClaimSource} {name : String}
  {m : MeetingDirectory B}

/-- The current transcript of an inspected meeting has the digest of its file. -/
theorem validSha256_of_inspectTranscript {meeting : MeetingRecord} {transcript : InspectedTranscript}
    (h : (inspectTranscript m limits meeting).answer = .ok transcript) {current : ArtifactRef}
    (hcurrent : transcript.current = some current) : validSha256 current.sha256 = true := by
  unfold inspectTranscript at h
  split at h
  · simp only [Spending.bind_answer_eq_ok] at h
    obtain ⟨found, -, actual, hactual, _, hsame, bytes, -, resolved, -, document, -, turns, -,
      heq⟩ := h
    have hactual : artifactRef m.reader found.relativePath = .ok actual := mapError_eq_ok.mp hactual
    have hsame : actual = found := not_not.mp (refuseIf_eq_ok.mp hsame)
    have hfound : found = current := by
      cases heq
      exact Option.some.inj hcurrent
    rw [← hfound, ← hsame]
    exact validSha256_of_artifactRef hactual
  · cases h
    cases hcurrent

omit [Platform B] [DecidableEq B] in
/-- The note of an inspected meeting is that of its record. -/
theorem validSha256_of_inspectNote {meeting : MeetingRecord} {transcript : InspectedTranscript}
    {note : InspectedNote} (hnote : checkSome meeting.artifacts.currentNote NoteRevisionRef.validate =
      .ok ()) (h : inspectNote source meeting transcript = .ok note) :
    (∀ text, note.jsonSha256 = some text → validSha256 text = true) ∧
      ∀ text, note.markdownSha256 = some text → validSha256 text = true := by
  unfold inspectNote at h
  split at h
  · simp only [bind_eq_ok, orRefuse_eq_ok] at h
    obtain ⟨found, hfound, current, -, claims, -, heq⟩ := h
    cases heq
    rw [hfound, checkSome_some] at hnote
    unfold NoteRevisionRef.validate at hnote
    rw [check_bind_eq_ok, check_bind_eq_ok] at hnote
    obtain ⟨hjson, hmarkdown, -⟩ := hnote
    constructor
    · intro text htext
      cases htext
      exact validSha256_of_validateDigestNamed hjson
    · intro text htext
      cases htext
      exact validSha256_of_validateDigestNamed hmarkdown
  · cases h
    constructor
    · intro text htext
      cases htext
    · intro text htext
      cases htext

/-- The row of an inspection. -/
theorem inspectMeeting_isPlain {row : LibraryRow} (hname : validOpaqueId name = true)
    (h : (inspectMeeting limits source name m).answer = .ok row) : row.IsPlain := by
  have hid := (inspectMeeting_row h).1
  unfold inspectMeeting at h
  simp only [Spending.bind_answer_eq_ok] at h
  obtain ⟨meeting, hmeeting, record, hrecord, reference, hreference, attempt, -, transcript,
    htranscript, note, hnote, _, -, hrow⟩ := h
  have hvalid := (MeetingRecord.validate_eq_ok B _ _).mp (inspectRecord_valid hmeeting)
  have hreferences := hvalid.references
  unfold MeetingRecord.validateReferences at hreferences
  simp only [check_bind_eq_ok] at hreferences
  obtain ⟨-, -, -, -, -, -, hcurrentNote⟩ := hreferences
  have hnotes := validSha256_of_inspectNote hcurrentNote hnote
  have hrecord : artifactRef m.reader "meeting.json" = .ok record := mapError_eq_ok.mp hrecord
  have hreference : artifactRef m.reader "attempt.json" = .ok reference :=
    mapError_eq_ok.mp hreference
  cases hrow
  refine {
    meetingId := hid ▸ plain_of_validOpaqueId hname
    meetingRecord := plain_of_validSha256 (validSha256_of_artifactRef hrecord)
    attempt := plain_of_validSha256 (validSha256_of_artifactRef hreference)
    transcript := fun text htext => ?_
    noteJson := fun text htext => plain_of_validSha256 (hnotes.1 text htext)
    noteMarkdown := fun text htext => plain_of_validSha256 (hnotes.2 text htext)
    title := fun _ htext => by cases htext
    folder := fun _ htext => by cases htext }
  obtain ⟨current, hcurrent, rfl⟩ := Option.map_eq_some_iff.mp htext
  exact plain_of_validSha256 (validSha256_of_inspectTranscript htranscript hcurrent)

end Inspected

/-! ## Labels -/

section Labels

variable {B : Type} [Platform B] [ComposingNormalizer]

omit [Platform B] in
theorem validLabel_of_validateFolders {prior : Option String} {folders : List Folder}
    (h : validateFolders prior folders = true) : ∀ folder ∈ folders, validLabel folder.name = true := by
  induction folders generalizing prior with
  | nil => exact fun _ h => absurd h not_mem_nil
  | cons first rest ih =>
    rw [validateFolders] at h
    simp only [Bool.and_eq_true] at h
    intro folder hfolder
    rcases mem_cons.mp hfolder with rfl | hfolder
    · exact h.1.1.2
    · exact ih h.2 folder hfolder

omit [Platform B] in
theorem validLabel_of_validateMeetings {folders : List Folder} {prior : Option String}
    {meetings : List MeetingMetadata} (h : validateMeetings folders prior meetings = true) :
    ∀ row ∈ meetings, row.title.all validLabel = true := by
  induction meetings generalizing prior with
  | nil => exact fun _ h => absurd h not_mem_nil
  | cons first rest ih =>
    rw [validateMeetings] at h
    simp only [Bool.and_eq_true] at h
    intro row hrow
    rcases mem_cons.mp hrow with rfl | hrow
    · exact h.1.1.2
    · exact ih h.2 row hrow

/-- What is read of the metadata is valid. -/
theorem validate_of_readLibraryMetadata {v : Volume LibraryPlace B} {document : MetadataDocument}
    (h : readLibraryMetadata v = .valid document) : document.validate = true := by
  have hparsed : ∃ bytes : B, parseMetadata bytes = some document := by
    unfold readLibraryMetadata at h
    repeat' split at h
    all_goals cases h
    exact ⟨_, ‹_›⟩
  obtain ⟨bytes, hparsed⟩ := hparsed
  unfold parseMetadata at hparsed
  obtain ⟨wire, -, hwire⟩ := Option.bind_eq_some_iff.mp hparsed
  split at hwire
  · cases hwire
    assumption
  · cases hwire

/-- A label is a plain text. -/
theorem label_isPlain {v : Volume LibraryPlace B} {document : MetadataDocument}
    (h : readLibraryMetadata v = .valid document) {row : LibraryRow} (hrow : row.IsPlain) :
    (MetadataDocument.label document row).IsPlain := by
  have hvalid := validate_of_readLibraryMetadata h
  unfold MetadataDocument.validate at hvalid
  rw [Bool.and_eq_true] at hvalid
  unfold MetadataDocument.label
  split
  · exact hrow
  · rename_i label hlabel
    refine { hrow with title := fun text htext => ?_, folder := fun text htext => ?_ }
    · have htitle := validLabel_of_validateMeetings hvalid.2 label (mem_of_find?_eq_some hlabel)
      rw [show label.title = some text from htext] at htitle
      exact plain_of_validLabel htitle
    · obtain ⟨id, -, hname⟩ := Option.bind_eq_some_iff.mp htext
      obtain ⟨folder, hfolder, rfl⟩ := Option.map_eq_some_iff.mp hname
      exact plain_of_validLabel
        (validLabel_of_validateFolders hvalid.1 folder (mem_of_find?_eq_some hfolder))

end Labels

/-! ## Projections -/

/-- A projection that a build returned, of whatever storage. -/
def Rebuilt (projection : LibraryProjection) : Prop :=
  ∃ (B : Type) (_ : Platform B) (_ : DecidableEq B) (_ : ComposingNormalizer)
    (storage : LibraryStorage B) (limits : ReadLimits) (source : ClaimSource)
    (excluded : Finset String), rebuild storage limits source excluded = .ok projection

/-- The rows of the verdicts of a build are plain. -/
theorem inspectAll_isPlain {B : Type} [Platform B] [DecidableEq B] {limits : ReadLimits}
    {source : ClaimSource} : ∀ {entries : List (String × MeetingDirectory B)} {total : Nat}
    {rows : List (Option LibraryRow)}, inspectAll limits source entries total = .ok rows →
    (∀ entry ∈ entries, validOpaqueId entry.1 = true) → ∀ row, some row ∈ rows → row.IsPlain := by
  intro entries
  induction entries with
  | nil =>
    intro total rows h _ row hrow
    cases h
    cases hrow
  | cons entry rest ih =>
    intro total rows h hnames row hrow
    unfold inspectAll Spending.runEach at h
    simp only [bind_eq_ok] at h
    obtain ⟨first, hfirst, later, hlater, heq⟩ := h
    cases heq
    rcases mem_cons.mp hrow with rfl | hrow
    · exact inspectMeeting_isPlain (hnames entry mem_cons_self)
        (run_eq_ok (verdict_eq_some hfirst))
    · exact ih hlater (fun other hother => hnames other (mem_cons_of_mem _ hother)) row hrow

/-- The rows of a projection are plain. -/
theorem Rebuilt.isPlain {projection : LibraryProjection} (h : Rebuilt projection) :
    ∀ row ∈ projection.rows, row.IsPlain := by
  obtain ⟨B, _, _, _, storage, limits, source, excluded, h⟩ := h
  obtain ⟨-, rows, hrows, rfl⟩ := rebuild_eq_ok.mp h
  have hnames : ∀ entry ∈ listedMeetings storage excluded, validOpaqueId entry.1 = true :=
    fun entry hentry => (mem_listedMeetings.mp hentry).2.1
  have hsorted : ∀ row ∈ (rows.filterMap id).insertionSort meetingOrder, row.IsPlain := by
    intro row hrow
    rw [mem_insertionSort] at hrow
    obtain ⟨found, hfound, rfl⟩ := mem_filterMap.mp hrow
    exact inspectAll_isPlain hrows hnames row hfound
  intro row hrow
  unfold labelled at hrow
  split at hrow
  · rename_i document hdocument
    split at hrow
    · obtain ⟨unlabelled, hmem, rfl⟩ := mem_map.mp hrow
      exact label_isPlain hdocument (hsorted unlabelled hmem)
    · exact hsorted row hrow
  · exact hsorted row hrow

end LibraryRead

end YawnApp.SessionCore
