import YawnApp.Foundation.JsonSize
import YawnApp.SessionCore.OperationStore
import YawnApp.SessionCore.TranscriptRevision

set_option autoImplicit false

/-!
# Every valid receipt fits

Receipts and records are read with a bound on their length.  A writer that
could produce a longer text than its reader takes would lock itself out, so
this module measures the pretty text of every record the operation store and
the coordinators write: whatever passes its own validation stays within the
bound it is read with.
-/

namespace YawnApp.SessionCore

open YawnApp.Foundation Value List Serde

/-! ## Digests, identifiers and references -/

theorem escapedSize_of_isLowerHex {c : Char} (h : isLowerHex c = true) :
    escapedSize c = 1 := by
  have hrange : (48 ≤ c.toNat ∧ c.toNat ≤ 57) ∨ (97 ≤ c.toNat ∧ c.toNat ≤ 102) := by
    unfold isLowerHex at h
    simp only [Bool.or_eq_true, Bool.and_eq_true, decide_eq_true_eq, Char.le_def,
      UInt32.le_iff_toNat_le] at h
    exact h
  refine escapedSize_eq_one (by omega) (by omega) ?_ ?_
  · rintro rfl
    revert hrange
    decide
  · rintro rfl
    revert hrange
    decide

theorem escapedSize_of_isOpaqueIdChar {c : Char} (h : isOpaqueIdChar c = true) :
    escapedSize c = 1 := by
  have hrange : (48 ≤ c.toNat ∧ c.toNat ≤ 57) ∨ (65 ≤ c.toNat ∧ c.toNat ≤ 90) ∨
      (97 ≤ c.toNat ∧ c.toNat ≤ 122) ∨ c.toNat = 45 ∨ c.toNat = 95 := by
    unfold isOpaqueIdChar Char.isAlphanum Char.isAlpha Char.isUpper Char.isLower Char.isDigit at h
    simp only [Bool.or_eq_true, Bool.and_eq_true, decide_eq_true_eq, beq_iff_eq, ge_iff_le,
      UInt32.le_iff_toNat_le] at h
    rcases h with ((h | h) | rfl) | rfl
    · rcases h with h | h
      · exact .inr (.inl h)
      · exact .inr (.inr (.inl h))
    · exact .inl h
    · exact .inr (.inr (.inr (.inl rfl)))
    · exact .inr (.inr (.inr (.inr rfl)))
  refine escapedSize_eq_one (by omega) (by omega) ?_ ?_
  · rintro rfl
    revert hrange
    decide
  · rintro rfl
    revert hrange
    decide

theorem textSize_uuid (id : Uuid) : textSize id.text = 36 := by
  have hcanonical := id.canonical
  simp only [canonicalUuid, Bool.and_eq_true, beq_iff_eq, all_eq_true] at hcanonical
  obtain ⟨hlength, hchars⟩ := hcanonical
  rw [textSize_of_plain ?_, hlength]
  intro c hc
  obtain ⟨i, hi, rfl⟩ := getElem_of_mem hc
  have h := hchars (id.text.toList[i], i) (by rw [mem_zipIdx_iff_getElem?]; simp [hi])
  simp only at h
  split at h
  · rw [beq_iff_eq] at h
    rw [h]
    decide
  · exact escapedSize_of_isLowerHex h

variable {s : String}

theorem textSize_of_validSha256 (h : validSha256 s = true) : textSize s = 64 := by
  unfold validSha256 at h
  rw [Bool.and_eq_true, beq_iff_eq, all_eq_true] at h
  rw [textSize_of_plain fun c hc => escapedSize_of_isLowerHex (h.2 c hc), h.1]

theorem prettySize_uuid (id : Uuid) (depth : Nat) : (toValue id).prettySize depth = 38 := by
  change (string id.text).prettySize depth = 38
  rw [prettySize, stringSize_eq, textSize_uuid]

theorem prettySize_sha256 (h : validSha256 s = true) (depth : Nat) :
    (toValue s).prettySize depth = 66 := by
  rw [prettySize_string, textSize_of_validSha256 h]

variable {r : ArtifactRef} {m : MeetingRecord}

theorem ArtifactRef.prettySize_le {path d : Nat} (hpath : textSize r.relativePath ≤ path)
    (hsha : validSha256 r.sha256 = true) : (toValue r).prettySize d ≤ 110 + path + 6 * d := by
  refine (prettySize_record_le ["relative_path", "sha256"] 23 (68 + path) rfl (by decide)
    ?_).trans ?_
  · have hvalue := prettySize_string r.relativePath (d + 1)
    have hdigest := prettySize_sha256 hsha (d + 1)
    simp only [map_cons, map_nil, sum_cons, sum_nil]
    omega
  · simp only [length_cons, length_nil]
    omega

/-- An artifact whose name is its digest, as a record of a few lines. -/
theorem ArtifactRef.prettySize_of_digestNamed {directory extension : String}
    (h : r.validateDigestNamed directory extension = .ok ()) (depth : Nat) :
    (toValue r).prettySize depth ≤
      176 + textSize directory + textSize extension + 6 * depth := by
  unfold ArtifactRef.validateDigestNamed validateRef validateSha256 at h
  simp only [bind_eq_ok, refuseIf_eq_ok, not_not] at h
  obtain ⟨_, hsha, _, hpath, -⟩ := h
  have hlength : textSize r.relativePath =
      66 + textSize directory + textSize extension := by
    have hslash : textSize "/" = 1 := by decide
    have hdot : textSize "." = 1 := by decide
    rw [hpath]
    simp only [textSize_append, textSize_of_validSha256 hsha, hslash, hdot]
    omega
  have hsize := ArtifactRef.prettySize_le (d := depth) hlength.le hsha
  omega

/-- A valid note takes less than a thousand bytes. -/
theorem NoteRevisionRef.prettySize_le {note : NoteRevisionRef} (h : note.validate = .ok ())
    {depth : Nat} (hdepth : depth ≤ 4) : (toValue note).prettySize depth ≤ 700 := by
  unfold NoteRevisionRef.validate validateSha256 at h
  simp only [bind_eq_ok, refuseIf_eq_ok, not_not] at h
  obtain ⟨_, hjson, _, hmarkdown, hsource⟩ := h
  have hj := ArtifactRef.prettySize_of_digestNamed hjson (depth + 1)
  have hm := ArtifactRef.prettySize_of_digestNamed hmarkdown (depth + 1)
  have hs := prettySize_sha256 hsource (depth + 1)
  have hnotes : textSize "notes" = 5 := by decide
  have hextension : textSize "json" = 4 := by decide
  have hextension' : textSize "md" = 2 := by decide
  refine (prettySize_record_le ["json", "markdown", "source_transcript_sha256"] 50 500 rfl
    (by decide) ?_).trans ?_
  · simp only [map_cons, map_nil, sum_cons, sum_nil]
    omega
  · simp only [length_cons, length_nil]
    omega

theorem validateNoteOf_eq_ok {note : NoteRevisionRef} {source detail : String}
    (h : validateNoteOf note source detail = .ok ()) : note.validate = .ok () := by
  unfold validateNoteOf validateNote at h
  simp only [bind_eq_ok, mapError_eq_ok] at h
  exact h.choose_spec.1

/-- The length of a note that may be absent. -/
theorem prettySize_note_le {note : Option NoteRevisionRef} {check : NoteRevisionRef →
    Except OperationContractError Unit} (hcheck : ∀ n, check n = .ok () → n.validate = .ok ())
    (h : checkSome note check = .ok ()) {depth : Nat} (hdepth : depth ≤ 4) :
    (nullable note).prettySize depth ≤ 700 := by
  apply prettySize_nullable_le (by decide)
  intro n hn
  rw [hn, checkSome_some] at h
  exact NoteRevisionRef.prettySize_le (hcheck n h) hdepth

/-! ## The receipts of a restoration -/

theorem TranscriptRestorationRequest.prettySize_le {r : TranscriptRestorationRequest}
    (h : r.validate = .ok ()) : (toValue r).prettySize 0 ≤ 2000 := by
  unfold TranscriptRestorationRequest.validate validateDigest at h
  simp only [bind_eq_ok, refuseIf_eq_ok, not_not] at h
  obtain ⟨_, -, _, hsource, hnote⟩ := h
  have hschema : (toValue r.schema).prettySize 1 ≤ 40 := by
    cases r.schema
    decide
  have hprior : (nullable r.priorNote).prettySize 1 ≤ 700 :=
    prettySize_note_le (fun n hn => validateNoteOf_eq_ok hn) hnote (by decide)
  have htime := prettySize_uint64_le r.requestedAtEpochSeconds 1
  have hturn := prettySize_uint32_le r.sourceTurnIndex 1
  refine (prettySize_record_le ["schema", "operation_id", "meeting_id",
    "requested_at_epoch_seconds", "source_transcript_sha256", "source_turn_index", "prior_note"]
    200 1000 rfl (by decide) ?_).trans ?_
  · simp only [map_cons, map_nil, sum_cons, sum_nil, Nat.zero_add,
      prettySize_uuid, prettySize_sha256 hsource]
    omega
  · simp only [length_cons, length_nil]
    omega

/-- A result fits because a base has at most `maxTranscriptTurns` turns. -/
theorem TranscriptRestorationResult.prettySize_le {r : TranscriptRestorationResult}
    (h : r.validate = .ok ()) (hcount : r.restoredSourceTurnIndices.length ≤ maxTranscriptTurns)
    (hindices : ∀ i ∈ r.restoredSourceTurnIndices, i.toNat < maxTranscriptTurns) :
    (toValue r).prettySize 0 ≤ maxReceiptBytes := by
  unfold TranscriptRestorationResult.validate validateDigest at h
  simp only [bind_eq_ok, refuseIf_eq_ok, not_not, mapError_eq_ok] at h
  obtain ⟨_, hsource, _, hbase, _, hparent, _, hview, -⟩ := h
  have hschema : (toValue r.schema).prettySize 1 ≤ 40 := by
    cases r.schema
    decide
  have hv := ArtifactRef.prettySize_of_digestNamed hview 1
  have hdirectory : textSize "transcript" = 10 := by decide
  have hextension : textSize "json" = 4 := by decide
  -- an index below 20000 has at most five digits
  have hrestored : (toValue r.restoredSourceTurnIndices).prettySize 1 ≤
      5 + maxTranscriptTurns * 11 := by
    refine (prettySize_list_le (b := 5) hcount fun i hi => ?_).trans (by omega)
    change digits i.toNat ≤ 5
    exact digits_le ((hindices i hi).trans (by decide)) (by decide)
  have hturns : maxTranscriptTurns = 20000 := rfl
  have hbound : maxReceiptBytes = 262144 := rfl
  refine (prettySize_record_le ["schema", "operation_id", "meeting_id",
    "source_transcript_sha256", "view", "base_transcript_sha256", "parent_transcript_sha256",
    "restored_source_turn_indices"] 200 221000 rfl (by decide) ?_).trans ?_
  · simp only [map_cons, map_nil, sum_cons, sum_nil, Nat.zero_add,
      prettySize_uuid, prettySize_sha256 hsource, prettySize_sha256 hbase,
      prettySize_sha256 hparent]
    omega
  · simp only [length_cons, length_nil]
    omega

/-! ## The receipts of a note -/

theorem escapedSize_le_of_not_control {c : Char} (h : isControl c = false) :
    escapedSize c ≤ 2 * c.utf8Size := by
  refine escapedSize_le_of_printable (.inl ?_)
  unfold isControl at h
  simp only [Bool.or_eq_false_iff, decide_eq_false_iff_not] at h
  omega

theorem textSize_le_of_no_control (h : s.toList.any isControl = false) :
    textSize s ≤ 2 * s.utf8ByteSize := by
  refine textSize_le fun c hc => escapedSize_le_of_not_control ?_
  rw [any_eq_false] at h
  simpa using h c hc

/-- One accepted speaker label is short. -/
theorem SpeakerLabelOverride.prettySize_le {override : SpeakerLabelOverride} {rank : Nat}
    (hrank : sourceSpeakerRank override.sourceSpeaker = some rank)
    (hbytes : override.replacement.utf8ByteSize ≤ 80)
    (hprintable : override.replacement.toList.any isControl = false) :
    (toValue override).prettySize 2 ≤ 300 := by
  have htext := textSize_le_of_no_control hprintable
  have hreplacement := prettySize_string override.replacement 3
  have hspeaker : (nullable override.sourceSpeaker).prettySize 3 ≤ 6 := by
    unfold sourceSpeakerRank at hrank
    split at hrank
    · rename_i hnone
      rw [hnone]
      decide
    · rename_i hme
      rw [hme]
      decide
    · rename_i hthem
      rw [hthem]
      decide
    · cases hrank
  refine (prettySize_record_le ["source_speaker", "replacement"] 40 180 rfl
    (by decide) ?_).trans ?_
  · simp only [map_cons, map_nil, sum_cons, sum_nil, Nat.reduceAdd]
    omega
  · simp only [length_cons, length_nil]
    omega

theorem speakerLabelOverrides_bounded : ∀ {overrides : List SpeakerLabelOverride}
    {previous : Option Nat}, validateSpeakerLabelOverridesFrom previous overrides = .ok () →
    ∀ o ∈ overrides, (toValue o).prettySize 2 ≤ 300 := by
  intro overrides
  induction overrides with
  | nil => intro previous _ o ho; cases ho
  | cons override rest ih =>
    intro previous h o ho
    simp only [validateSpeakerLabelOverridesFrom, bind_eq_ok, orRefuse_eq_ok, refuseIf_eq_ok,
      not_or, Nat.not_lt] at h
    obtain ⟨rank, hrank, _, -, _, ⟨-, hbytes, -, hprintable⟩, hrest⟩ := h
    rcases mem_cons.mp ho with rfl | ho
    · exact SpeakerLabelOverride.prettySize_le hrank hbytes (by simpa using hprintable)
    · exact ih hrest o ho

/-- One accepted replacement is short. -/
theorem VocabularyRangeReplacement.prettySize_le {r : VocabularyRangeReplacement}
    (hbytes : r.replacement.utf8ByteSize ≤ 512)
    (hprintable : r.replacement.toList.any isControl = false)
    (hsource : validSha256 r.sourceSha256 = true) : (toValue r).prettySize 2 ≤ 1400 := by
  have htext := textSize_le_of_no_control hprintable
  have hreplacement := prettySize_string r.replacement 3
  have hturn := prettySize_uint32_le r.turn 3
  have hstart := prettySize_uint32_le r.charStart 3
  have hend := prettySize_uint32_le r.charEnd 3
  have hsha := prettySize_sha256 hsource 3
  refine (prettySize_record_le ["turn", "char_start", "char_end", "source_sha256",
    "replacement"] 100 1200 rfl (by decide) ?_).trans ?_
  · simp only [map_cons, map_nil, sum_cons, sum_nil, Nat.reduceAdd]
    omega
  · simp only [length_cons, length_nil]
    omega

theorem vocabularyReplacements_bounded : ∀ {replacements : List VocabularyRangeReplacement}
    {previous : Option VocabularyRangeReplacement},
    vocabularyRangeReplacementsFrom previous replacements = true →
    ∀ r ∈ replacements, (toValue r).prettySize 2 ≤ 1400 := by
  intro replacements
  induction replacements with
  | nil => intro previous _ r hr; cases hr
  | cons first rest ih =>
    intro previous h r hr
    simp only [vocabularyRangeReplacementsFrom, Bool.and_eq_true, decide_eq_true_eq,
      Bool.not_eq_true'] at h
    obtain ⟨⟨⟨⟨⟨⟨-, -⟩, hbytes⟩, hprintable⟩, hsource⟩, -⟩, hrest⟩ := h
    rcases mem_cons.mp hr with rfl | hr
    · exact VocabularyRangeReplacement.prettySize_le hbytes hprintable hsource
    · exact ih hrest r hr

theorem preMeetingContext_bounded {context : Option String} {text : String}
    (h : validatePreMeetingContext context = .ok ()) (htext : context = some text) :
    (toValue text).prettySize 1 ≤ 32770 := by
  unfold validatePreMeetingContext at h
  rw [htext, checkSome_some, refuseIf_eq_ok, not_or, not_or, Nat.not_lt] at h
  obtain ⟨-, hbytes, hprintable⟩ := h
  have hsize : textSize text ≤ 2 * text.utf8ByteSize := by
    apply textSize_le
    intro c hc
    rw [any_eq_true, not_exists] at hprintable
    have hchar := hprintable c
    by_cases hcontrol : isControl c = true
    · refine escapedSize_le_of_printable (.inr ?_)
      by_contra hne
      rw [not_or] at hne
      exact hchar ⟨hc, by simp [hcontrol, hne.1, hne.2]⟩
    · exact escapedSize_le_of_not_control (by simpa using hcontrol)
  have hbound : maxPreMeetingContextBytes = 16384 := rfl
  rw [prettySize_string]
  omega

theorem NoteGenerationRequest.prettySize_le {r : NoteGenerationRequest}
    (h : r.validate = .ok ()) : (toValue r).prettySize 0 ≤ maxReceiptBytes := by
  unfold NoteGenerationRequest.validate validateDigest at h
  simp only [bind_eq_ok, refuseIf_eq_ok, not_not] at h
  obtain ⟨_, -, _, hsource, _, hlabels, _, hvocabulary, _, hcontext, hnote⟩ := h
  have hschema : (toValue r.schema).prettySize 1 ≤ 40 := by
    cases r.schema <;> decide
  have htime := prettySize_uint64_le r.requestedAtEpochSeconds 1
  have hmandatory : prettyFields 1 r.mandatory ≤ 600 := by
    rw [prettyFields_eq, show r.mandatory.map Prod.fst = ["schema", "operation_id",
      "meeting_id", "requested_at_epoch_seconds", "source_transcript_sha256"] from rfl,
      show (["schema", "operation_id", "meeting_id", "requested_at_epoch_seconds",
        "source_transcript_sha256"].map stringSize).sum = 88 by decide]
    simp only [NoteGenerationRequest.mandatory, map_cons, map_nil, sum_cons,
      sum_nil, length_cons, length_nil, prettySize_uuid, prettySize_sha256 hsource]
    omega
  have hspeakers : (toValue r.speakerLabelOverrides).prettySize 1 ≤ 1000 := by
    unfold validateSpeakerLabelOverrides at hlabels
    simp only [bind_eq_ok, refuseIf_eq_ok, Nat.not_lt] at hlabels
    obtain ⟨_, hcount, hlabels⟩ := hlabels
    exact (prettySize_list_le (b := 300) hcount (speakerLabelOverrides_bounded hlabels)).trans
      (by decide)
  have hreplacements : (toValue r.vocabularyReplacements).prettySize 1 ≤ 100000 := by
    unfold validateVocabularyReplacements vocabularyRangeReplacementsAreValid at hvocabulary
    simp only [refuseIf_eq_ok, not_not, Bool.and_eq_true, decide_eq_true_eq] at hvocabulary
    exact (prettySize_list_le (b := 1400) hvocabulary.1
      (vocabularyReplacements_bounded hvocabulary.2)).trans (by decide)
  have hprior : ∀ n, r.priorNote = some n → (toValue n).prettySize 1 ≤ 700 := by
    intro n hn
    refine NoteRevisionRef.prettySize_le ?_ (by decide)
    rw [hn] at hnote
    cases hs : r.schema with
    | v1 => simp [hs] at hnote
    | v2 =>
      simp only [hs] at hnote
      exact validateNoteOf_eq_ok hnote
  have hwritten := prettySize_object_le 0 r.written
  have h1 := prettyFields_unlessEmpty_le "speaker_label_overrides" hspeakers
  have h2 := prettyFields_unlessEmpty_le "vocabulary_replacements" hreplacements
  have h3 := prettyFields_unlessNone_le "prior_note" hprior
  have h4 := prettyFields_unlessNone_le "pre_meeting_context" fun text htext =>
    preMeetingContext_bounded hcontext htext
  have hnames : stringSize "speaker_label_overrides" = 25 ∧
      stringSize "vocabulary_replacements" = 25 ∧ stringSize "prior_note" = 12 ∧
      stringSize "pre_meeting_context" = 21 := by decide
  have hbound : maxReceiptBytes = 262144 := rfl
  change (object r.written).prettySize 0 ≤ _
  rw [NoteGenerationRequest.written] at hwritten
  simp only [prettyFields_append, Nat.zero_add] at hwritten
  rw [← NoteGenerationRequest.written] at hwritten
  omega

theorem NoteGenerationResult.prettySize_le {r : NoteGenerationResult} (h : r.validate = .ok ()) :
    (toValue r).prettySize 0 ≤ 2000 := by
  unfold NoteGenerationResult.validate validateDigest at h
  simp only [bind_eq_ok, refuseIf_eq_ok, not_not] at h
  obtain ⟨_, hsource, houtcome⟩ := h
  have hschema : (toValue r.schema).prettySize 1 ≤ 40 := by
    cases r.schema
    decide
  have hstatus : (toValue r.status).prettySize 1 ≤ 20 := by
    cases r.status <;> decide
  have hcode : (nullable r.failureCode).prettySize 1 ≤ 40 := by
    cases r.failureCode with
    | none => decide
    | some code => cases code <;> decide
  have hnote : (nullable r.note).prettySize 1 ≤ 700 := by
    apply prettySize_nullable_le (by decide)
    intro n hn
    refine NoteRevisionRef.prettySize_le ?_ (by decide)
    split at houtcome
    · rename_i note _ hsome _
      rw [hn, Option.some.injEq] at hsome
      rw [hsome]
      exact validateNoteOf_eq_ok houtcome
    · rename_i _ hnone _
      rw [hn] at hnone
      cases hnone
    · cases houtcome
  refine (prettySize_record_le ["schema", "operation_id", "meeting_id",
    "source_transcript_sha256", "status", "note", "failure_code"] 120 1000 rfl (by decide) ?_).trans ?_
  · simp only [map_cons, map_nil, sum_cons, sum_nil, Nat.zero_add,
      prettySize_uuid, prettySize_sha256 hsource]
    omega
  · simp only [length_cons, length_nil]
    omega

/-! ## Commits and records -/

theorem prettySize_lifecycle_le (lifecycle : MeetingLifecycle) (depth : Nat) :
    (toValue lifecycle).prettySize depth ≤ 24 := by
  change stringSize lifecycle.name ≤ 24
  cases lifecycle <;> decide

theorem MeetingOperationCommit.prettySize_le {c : MeetingOperationCommit} (h : c.validate = .ok ()) :
    (toValue c).prettySize 0 ≤ 3000 := by
  unfold MeetingOperationCommit.validate validateDigest at h
  simp only [bind_eq_ok, refuseIf_eq_ok, not_not] at h
  obtain ⟨_, hrequest, _, hresult, _, hmeeting, _, htranscript, _, -, _, hnote, -⟩ := h
  have hschema : (toValue c.schema).prettySize 1 ≤ 40 := by
    cases c.schema
    decide
  have hkind : (toValue c.kind).prettySize 1 ≤ 40 := by
    cases c.kind <;> decide
  have houtcome : (toValue c.outcome).prettySize 1 ≤ 40 := by
    cases c.outcome <;> decide
  have hlifecycle := prettySize_lifecycle_le c.lifecycle 1
  have htime := prettySize_uint64_le c.committedAtEpochSeconds 1
  have hcurrent : (nullable c.currentNote).prettySize 1 ≤ 700 :=
    prettySize_note_le (fun n hn => validateNoteOf_eq_ok hn) hnote (by decide)
  refine (prettySize_record_le ["schema", "operation_id", "meeting_id", "kind", "outcome",
    "request_sha256", "result_sha256", "committed_meeting_sha256", "committed_at_epoch_seconds",
    "lifecycle", "current_transcript_sha256", "current_note"] 300 1500 rfl (by decide) ?_).trans ?_
  · simp only [map_cons, map_nil, sum_cons, sum_nil, Nat.zero_add,
      prettySize_uuid, prettySize_sha256 hrequest, prettySize_sha256 hresult,
      prettySize_sha256 hmeeting, prettySize_sha256 htranscript]
    omega
  · simp only [length_cons, length_nil]
    omega

/-- A reference whose path is one of the fixed ones. -/
theorem ArtifactRef.prettySize_of_path {o : Option ArtifactRef} {check : ArtifactRef →
    Except MeetingError Unit} (h : checkSome o check = .ok ()) {d : Nat} (hdepth : d ≤ 4)
    (hcheck : ∀ r, check r = .ok () →
      textSize r.relativePath ≤ 100 ∧ validSha256 r.sha256 = true) :
    (nullable o).prettySize d ≤ 240 := by
  apply prettySize_nullable_le (by decide)
  intro r hr
  rw [hr, checkSome_some] at h
  obtain ⟨hpath, hsha⟩ := hcheck r h
  have := ArtifactRef.prettySize_le (d := d) hpath hsha
  omega

theorem validateRef_bounded {path : String} (h : validateRef r path = .ok ())
    (hpath : textSize path ≤ 100) :
    textSize r.relativePath ≤ 100 ∧ validSha256 r.sha256 = true := by
  unfold validateRef validateSha256 at h
  simp only [bind_eq_ok, refuseIf_eq_ok, not_not] at h
  obtain ⟨_, heq, hsha⟩ := h
  exact ⟨by rwa [heq], hsha⟩

theorem validateAudioRef_bounded {canonical held : String} {allow : Bool}
    (h : validateAudioRef r canonical held allow = .ok ())
    (hcanonical : textSize canonical ≤ 100) (hheld : textSize held ≤ 100) :
    textSize r.relativePath ≤ 100 ∧ validSha256 r.sha256 = true := by
  unfold validateAudioRef validateSha256 at h
  simp only [bind_eq_ok, refuseIf_eq_ok, not_not] at h
  obtain ⟨_, hpath, hsha⟩ := h
  refine ⟨?_, hsha⟩
  rcases hpath with heq | ⟨-, heq⟩
  · rwa [heq]
  · rwa [heq]

theorem validateDigestNamed_bounded {directory extension : String}
    (h : r.validateDigestNamed directory extension = .ok ())
    (hdirectory : textSize directory + textSize extension ≤ 34) :
    textSize r.relativePath ≤ 100 ∧ validSha256 r.sha256 = true := by
  unfold ArtifactRef.validateDigestNamed validateSha256 at h
  simp only [bind_eq_ok, refuseIf_eq_ok, not_not] at h
  obtain ⟨_, hsha, hpath⟩ := h
  apply validateRef_bounded hpath
  have hslash : textSize "/" = 1 := by decide
  have hdot : textSize "." = 1 := by decide
  simp only [textSize_append, textSize_of_validSha256 hsha, hslash, hdot]
  omega

theorem AudioRetention.prettySize_le {B : Type} [Platform B]
    (hrule : m.validateRetentionRule B = .ok ()) (hstate : m.validateAudioState = .ok ()) :
    (toValue m.retention).prettySize 1 ≤ 1000 := by
  have hpolicy : validSha256 m.retention.policySha256 = true := by
    unfold MeetingRecord.validateRetentionRule at hrule
    simp only [bind_eq_ok, refuseIf_eq_ok, not_not] at hrule
    obtain ⟨_, heq, -⟩ := hrule
    rw [heq]
    exact Platform.validSha256_sha256 _
  have hkind : (toValue m.retention.rule).prettySize 2 ≤ 120 := by
    cases m.retention.rule with
    | untilManualDeletion => decide
    | deleteAfter seconds =>
      have hseconds := prettySize_uint64_le seconds 3
      have hname : (string "delete-after").prettySize 3 = 14 := by decide
      refine (prettySize_record_le ["kind", "seconds"] 15 40 rfl (by decide) ?_).trans ?_
      · simp only [map_cons, map_nil, sum_cons, sum_nil, Nat.reduceAdd]
        omega
      · simp only [length_cons, length_nil]
        omega
  have hdeadline : (nullable m.retention.nextDeletionAtEpochSeconds).prettySize 2 ≤ 20 :=
    prettySize_nullable_le (by decide) fun n _ => prettySize_uint64_le n 2
  have haudio : (toValue m.retention.state).prettySize 2 ≤ 20 := by
    cases m.retention.state <;> decide
  have hreceipt : (nullable m.retention.deletionReceipt).prettySize 2 ≤ 240 := by
    unfold MeetingRecord.validateAudioState at hstate
    cases hs : m.retention.state with
    | released =>
      simp only [hs, bind_eq_ok, orRefuse_eq_ok] at hstate
      obtain ⟨receipt, hsome, _, href, -⟩ := hstate
      have hbounded := validateRef_bounded href (by decide)
      have hsize := ArtifactRef.prettySize_le (d := 2) hbounded.1 hbounded.2
      rw [hsome]
      change (toValue receipt).prettySize 2 ≤ 240
      omega
    | neverCreated | retained | deleting =>
      simp only [hs, refuseIf_eq_ok, not_or] at hstate
      have hnone : m.retention.deletionReceipt = none := by simpa using hstate.2.1
      rw [hnone]
      decide
  refine (prettySize_record_le ["rule", "policy_sha256", "next_deletion_at_epoch_seconds",
    "state", "deletion_receipt"] 100 600 rfl (by decide) ?_).trans ?_
  · simp only [map_cons, map_nil, sum_cons, sum_nil, Nat.reduceAdd,
      prettySize_sha256 hpolicy]
    omega
  · simp only [length_cons, length_nil]
    omega

theorem MeetingArtifacts.prettySize_le (h : m.validateReferences = .ok ()) :
    (toValue m.artifacts).prettySize 1 ≤ 4000 := by
  unfold MeetingRecord.validateReferences at h
  simp only [bind_eq_ok] at h
  obtain ⟨_, hattempt, _, hownership, _, hsession, _, hmic, _, hsystem, _, htranscript, hnote⟩ := h
  have ha := validateRef_bounded hattempt (by decide)
  have hattempt := ArtifactRef.prettySize_le (d := 2) ha.1 ha.2
  have hownership := ArtifactRef.prettySize_of_path hownership (d := 2) (by decide)
    fun r hr => validateRef_bounded hr (by decide)
  have hsession := ArtifactRef.prettySize_of_path hsession (d := 2) (by decide)
    fun r hr => validateRef_bounded hr (by decide)
  have hmic := ArtifactRef.prettySize_of_path hmic (d := 2) (by decide)
    fun r hr => validateAudioRef_bounded hr (by decide) (by decide)
  have hsystem := ArtifactRef.prettySize_of_path hsystem (d := 2) (by decide)
    fun r hr => validateAudioRef_bounded hr (by decide) (by decide)
  have htranscript := ArtifactRef.prettySize_of_path htranscript (d := 2) (by decide)
    fun r hr => validateDigestNamed_bounded hr (by decide)
  have hnote : (nullable m.artifacts.currentNote).prettySize 2 ≤ 700 := by
    apply prettySize_nullable_le (by decide)
    intro n hn
    rw [hn, checkSome_some] at hnote
    exact NoteRevisionRef.prettySize_le hnote (by decide)
  refine (prettySize_record_le ["attempt", "ownership", "capture_session",
    "microphone_audio", "system_audio", "current_transcript", "current_note"] 150 3000 rfl
    (by decide) ?_).trans ?_
  · simp only [map_cons, map_nil, sum_cons, sum_nil, Nat.reduceAdd]
    omega
  · simp only [length_cons, length_nil]
    omega

/-- An identifier fit to name a directory is short and written as it is. -/
theorem textSize_of_validOpaqueId (h : validOpaqueId s = true) : textSize s ≤ 128 := by
  simp only [validOpaqueId, Bool.and_eq_true, decide_eq_true_eq, all_eq_true] at h
  obtain ⟨⟨⟨⟨-, hlength⟩, -⟩, -⟩, hchars⟩ := h
  rw [textSize_of_plain fun c hc => escapedSize_of_isOpaqueIdChar (hchars c hc)]
  exact hlength

/-- A valid record is read back within its bound. -/
theorem MeetingRecord.prettySize_le {B : Type} [Platform B] {id : String}
    (h : m.validate B id = .ok ()) : (toValue m).prettySize 0 ≤ maxMeetingRecordBytes := by
  obtain ⟨hidentity, hrule, hreferences, -, hstate, -, -⟩ := (m.validate_eq_ok B id).mp h
  have hid : textSize m.meetingId ≤ 128 := by
    unfold MeetingRecord.validateIdentity at hidentity
    rw [refuseIf_eq_ok, not_or, not_not, not_not] at hidentity
    exact hidentity.2 ▸ textSize_of_validOpaqueId hidentity.1
  have hschema : (toValue m.schema).prettySize 1 ≤ 20 := by
    cases m.schema
    decide
  have hmeeting : (toValue m.meetingId).prettySize 1 ≤ 130 := by
    rw [prettySize_string]
    omega
  have hlifecycle := prettySize_lifecycle_le m.lifecycle 1
  have hretention := AudioRetention.prettySize_le hrule hstate
  have hartifacts := MeetingArtifacts.prettySize_le hreferences
  have hpending : (nullable m.pendingStorageOperation).prettySize 1 ≤ 40 := by
    cases m.pendingStorageOperation with
    | none => decide
    | some pending => cases pending <;> decide
  have hbound : maxMeetingRecordBytes = 262144 := rfl
  refine (prettySize_record_le ["schema", "meeting_id", "lifecycle", "retention",
    "artifacts", "pending_storage_operation"] 100 6000 rfl (by decide) ?_).trans ?_
  · simp only [map_cons, map_nil, sum_cons, sum_nil, Nat.zero_add]
    omega
  · simp only [length_cons, length_nil]
    omega

/-! ## The bounds, as their readers ask for them -/

section Fits

variable {B : Type} [Platform B]

theorem StoredOperationRequest.fits {r : StoredOperationRequest} (h : r.validate = .ok ()) :
    ByteString.size (r.canonicalBytes : B) ≤ maxReceiptBytes := by
  cases r with
  | restoration request =>
    have hvalid : request.validate = .ok () := by simpa [StoredOperationRequest.validate] using h
    exact (size_toVecPretty request).trans_le
      (request.prettySize_le hvalid |>.trans (by decide))
  | noteGeneration request =>
    have hvalid : request.validate = .ok () := by simpa [StoredOperationRequest.validate] using h
    exact (size_toVecPretty request).trans_le (request.prettySize_le hvalid)

theorem MeetingOperationCommit.fits {c : MeetingOperationCommit} (h : c.validate = .ok ()) :
    ByteString.size (toVecPretty c : B) ≤ maxReceiptBytes :=
  (size_toVecPretty c).trans_le (c.prettySize_le h |>.trans (by decide))

theorem MeetingRecord.fits {m : MeetingRecord} {id : String} (h : m.validate B id = .ok ()) :
    ByteString.size (toVecPretty m : B) ≤ maxMeetingRecordBytes :=
  (size_toVecPretty m).trans_le (m.prettySize_le h)

end Fits

end YawnApp.SessionCore
