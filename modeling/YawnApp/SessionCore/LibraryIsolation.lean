import YawnApp.SessionCore.LibraryRead
import YawnApp.SessionCore.Recorded

set_option autoImplicit false

/-!
# Meetings in a library build

A build classifies each listed meeting: it has a row or is in quarantine.  A
meeting is isolated when it is classified as in a library of its own.  The only
thing that a build passes from one meeting to the next is the byte budget, and
of all overdrafts only that of a revision in the chain of a restored transcript
leaves the build going.  So isolation fails only where such a revision overdraws
the budget and no later meeting reads anything.
-/

namespace YawnApp.SessionCore

open YawnApp.Foundation Spending List

namespace LibraryRead

/-! ## What a build says of a meeting -/

/-- A row before it is labelled. -/
def LibraryRow.unlabelled (row : LibraryRow) : LibraryRow :=
  { row with title := none, folder := none, folderId := none }

/-- The row of a listed meeting, or none for a meeting in quarantine. -/
def LibraryProjection.classified (projection : LibraryProjection) (name : String) :
    Option LibraryRow :=
  (lookupKey LibraryRow.meetingId name projection.rows).map LibraryRow.unlabelled

variable {B : Type} [Platform B]

/-- The library in which one meeting is the only one. -/
def LibraryStorage.only (storage : LibraryStorage B) (name : String) (m : MeetingDirectory B) :
    LibraryStorage B :=
  { storage with meetings :=
      { Directory.empty.put name m with isPrivate := storage.meetings.isPrivate } }

section Isolation

variable [DecidableEq B] [ComposingNormalizer]

/-- Every listed meeting of a build that answers is classified as in a library
of its own. -/
def Isolated (storage : LibraryStorage B) (limits : ReadLimits) (source : ClaimSource)
    (excluded : Finset String) : Prop :=
  ∀ projection, rebuild storage limits source excluded = .ok projection →
    ∀ name m, (name, m) ∈ listedMeetings storage excluded →
      ∃ alone, rebuild (storage.only name m) limits source excluded = .ok alone ∧
        alone.classified name = projection.classified name

/-- The checks of a build before it inspects a meeting. -/
structure Starts (storage : LibraryStorage B) (limits : ReadLimits) (excluded : Finset String) :
    Prop where
  meetings : limits.maxMeetings ≠ 0
  bytes : limits.maxTotalBytes ≠ 0
  transcript : limits.maxTranscriptBytes ≠ 0
  isPrivate : storage.meetings.isPrivate = true
  fits : (listedMeetings storage excluded).length ≤ limits.maxMeetings

end Isolation

/-! ## One inspection -/

section Inspection

variable {limits : ReadLimits} {source : ClaimSource} {name : String} {m : MeetingDirectory B}
  {excluded : Finset String}

section

variable [DecidableEq B]

/-- A meeting whose record cannot be opened reads nothing. -/
theorem inspectMeeting_of_unopened {refusal : MeetingError}
    (h : openFile m "meeting.json" = .error refusal) :
    inspectMeeting limits source name m = ⟨[], .error .quarantine⟩ := by
  have hread : readFile m "meeting.json" maxMeetingRecordBytes = ⟨[], .error .quarantine⟩ := by
    unfold readFile boundedRead
    rw [h]
    rfl
  have hrecord : inspectRecord limits name m = ⟨[], .error .quarantine⟩ := by
    unfold inspectRecord
    rw [hread]
    exact bind_of_error _ rfl
  unfold inspectMeeting
  rw [hrecord]
  exact bind_of_error _ rfl

/-- Whatever follows a program, its charges come first. -/
theorem charges_bind {α β : Type} (s : Inspection α) (k : α → Inspection β) :
    ∃ rest, (s >>= k).charges = s.charges ++ rest := by
  cases h : s.answer with
  | ok => exact ⟨_, by rw [bind_of_ok k h]⟩
  | error => exact ⟨[], by rw [bind_of_error k h, append_nil]⟩

/-- A meeting whose record can be opened asks for its bytes first, or refuses
the library. -/
theorem inspectMeeting_of_opened {bytes : B} (h : openFile m "meeting.json" = .ok bytes) :
    (∃ rest, (inspectMeeting limits source name m).charges =
      ⟨ByteString.size bytes, .capacityExceeded⟩ :: rest) ∨
    inspectMeeting limits source name m = ⟨[], .error .capacityExceeded⟩ := by
  have hread : (readFile m "meeting.json" maxMeetingRecordBytes).charges =
      [⟨ByteString.size bytes, .capacityExceeded⟩] ∨
      readFile m "meeting.json" maxMeetingRecordBytes = ⟨[], .error .capacityExceeded⟩ := by
    unfold readFile boundedRead
    rw [h]
    by_cases hsize : ByteString.size bytes > maxMeetingRecordBytes
    · right
      simp only [if_pos hsize]
      rfl
    · left
      simp only [if_neg hsize]
      rfl
  rcases hread with hread | hread
  · left
    have hrecord : ∃ rest, (inspectRecord limits name m).charges =
        (readFile m "meeting.json" maxMeetingRecordBytes).charges ++ rest := charges_bind _ _
    have hmeeting : ∃ rest, (inspectMeeting limits source name m).charges =
        (inspectRecord limits name m).charges ++ rest := charges_bind _ _
    obtain ⟨rest, hrecord⟩ := hrecord
    obtain ⟨later, hmeeting⟩ := hmeeting
    exact ⟨rest ++ later, by rw [hmeeting, hrecord, hread]; rfl⟩
  · right
    have hrecord : inspectRecord limits name m = ⟨[], .error .capacityExceeded⟩ := by
      unfold inspectRecord
      rw [hread]
      exact bind_of_error _ rfl
    unfold inspectMeeting
    rw [hrecord]
    exact bind_of_error _ rfl

/-- Once the budget is overdrawn, the build goes on only past a meeting whose
record cannot be opened. -/
theorem verdict_broke {row : Option LibraryRow}
    (h : verdict (inspectMeeting limits source name m).broke = .ok row) :
    (∃ refusal, openFile m "meeting.json" = .error refusal) ∧ row = none := by
  cases hopen : openFile m "meeting.json" with
  | error refusal =>
    refine ⟨⟨refusal, rfl⟩, ?_⟩
    rw [inspectMeeting_of_unopened hopen] at h
    cases h
    rfl
  | ok bytes =>
    exfalso
    have hopened : (∃ rest, (inspectMeeting limits source name m).charges =
        ⟨ByteString.size bytes, .capacityExceeded⟩ :: rest) ∨
        inspectMeeting limits source name m = ⟨[], .error .capacityExceeded⟩ :=
      inspectMeeting_of_opened hopen
    rcases hopened with ⟨rest, hcharges⟩ | hrefused
    · unfold broke at h
      rw [hcharges] at h
      cases h
    · rw [hrefused] at h
      cases h

omit [DecidableEq B] in
/-- The record that is inspected is valid. -/
theorem inspectRecord_valid {meeting : MeetingRecord}
    (h : (inspectRecord limits name m).answer = .ok meeting) :
    meeting.validate B name = .ok () := by
  unfold inspectRecord at h
  simp only [bind_answer_eq_ok] at h
  obtain ⟨_, -, found, hload, _, -, _, -, _, -, heq⟩ := h
  cases heq
  have hload : loadRecord name m = .ok meeting := mapError_eq_ok.mp hload
  unfold loadRecord at hload
  rw [check_bind_eq_ok] at hload
  exact loadMeeting_eq_ok hload.2

/-- The row of a meeting carries its name and no labels. -/
theorem inspectMeeting_row {row : LibraryRow}
    (h : (inspectMeeting limits source name m).answer = .ok row) :
    row.meetingId = name ∧ row.unlabelled = row := by
  unfold inspectMeeting at h
  simp only [bind_answer_eq_ok] at h
  obtain ⟨meeting, hmeeting, record, -, reference, -, attempt, -, transcript, -, note, -, _, -,
    hrow⟩ := h
  cases hrow
  refine ⟨?_, rfl⟩
  have hidentity := ((MeetingRecord.validate_eq_ok B _ _).mp (inspectRecord_valid hmeeting)).identity
  unfold MeetingRecord.validateIdentity at hidentity
  rw [refuseIf_eq_ok, not_or, not_not] at hidentity
  exact not_not.mp hidentity.2

end

end Inspection

/-! ## The verdicts of a build -/

section Verdicts

variable [DecidableEq B]

/-- A meeting on its own: its inspection with nothing spent. -/
def readAlone (limits : ReadLimits) (source : ClaimSource) (entry : String × MeetingDirectory B) :
    Except MeetingInspectionError LibraryRow :=
  ((inspectEntry limits source entry).run limits.maxTotalBytes 0).1

/-- What the inspections of a list charge in all. -/
def spentOn (limits : ReadLimits) (source : ClaimSource)
    (entries : List (String × MeetingDirectory B)) : Nat :=
  Spending.spentBy (inspectEntry limits source) entries

variable {limits : ReadLimits} {source : ClaimSource} {entries : List (String × MeetingDirectory B)}
  {excluded : Finset String} {storage : LibraryStorage B} {rows : List (Option LibraryRow)}

/-- A verdict fits a listed meeting when its row carries the meeting's name. -/
def Fits (entry : String × MeetingDirectory B) (row : Option LibraryRow) : Prop :=
  ∀ r, row = some r → r.meetingId = entry.1 ∧ r.unlabelled = r

theorem verdict_eq_some {outcome : Except MeetingInspectionError LibraryRow} {row : LibraryRow}
    (h : verdict outcome = .ok (some row)) : outcome = .ok row := by
  cases outcome with
  | ok =>
    cases h
    rfl
  | error e => cases e <;> cases h

theorem verdict_eq_none {outcome : Except MeetingInspectionError LibraryRow}
    (h : verdict outcome = .ok none) : outcome = .error .quarantine := by
  cases outcome with
  | ok => cases h
  | error e =>
    cases e with
    | quarantine => rfl
    | capacityExceeded | unavailable => cases h

/-- A row comes from an inspection whose charges are paid. -/
theorem run_eq_ok {s : Inspection LibraryRow} {limit total : Nat} {row : LibraryRow}
    (h : (s.run limit total).1 = .ok row) : s.answer = .ok row := by
  cases hover : overdrawn limit total s.charges with
  | none =>
    rw [run_of_not_overdrawn hover] at h
    exact h
  | some =>
    obtain ⟨spent, hrun, -⟩ := run_of_overdrawn hover
    rw [hrun] at h
    cases h

/-- Each verdict of a build fits its meeting. -/
theorem inspectAll_fits : ∀ {entries : List (String × MeetingDirectory B)} {total : Nat}
    {rows : List (Option LibraryRow)}, inspectAll limits source entries total = .ok rows →
    List.Forall₂ Fits entries rows := by
  intro entries
  induction entries with
  | nil =>
    intro total rows h
    cases h
    exact .nil
  | cons entry rest ih =>
    intro total rows h
    unfold inspectAll runEach at h
    simp only [bind_eq_ok] at h
    obtain ⟨row, hrow, later, hlater, heq⟩ := h
    cases heq
    refine .cons (fun r hr => ?_) (ih hlater)
    subst hr
    exact inspectMeeting_row (run_eq_ok (verdict_eq_some hrow))

omit [Platform B] [DecidableEq B] in
/-- The rows of a build are looked up by the names of their meetings. -/
theorem lookup_of_fits {entries : List (String × MeetingDirectory B)}
    (h : List.Forall₂ Fits entries rows) : (entries.map Prod.fst).Nodup →
      ((rows.filterMap id).map LibraryRow.meetingId).Nodup ∧
      (∀ r ∈ rows.filterMap id, r.meetingId ∈ entries.map Prod.fst) ∧
      ∀ pair ∈ entries.zip rows,
        lookupKey LibraryRow.meetingId pair.1.1 (rows.filterMap id) = pair.2 := by
  induction h with
  | nil => exact fun _ => ⟨nodup_nil, fun _ h => absurd h not_mem_nil, fun _ h =>
      absurd h not_mem_nil⟩
  | cons hfits hrest ih =>
    rename_i entry row entries rows
    intro hnodup
    rw [map_cons, nodup_cons] at hnodup
    obtain ⟨hkeys, hnames, hlookup⟩ := ih hnodup.2
    cases row with
    | none =>
      refine ⟨hkeys, fun r hr => mem_cons_of_mem _ (hnames r hr), fun pair hpair => ?_⟩
      rw [zip_cons_cons, mem_cons] at hpair
      rcases hpair with rfl | hpair
      · apply lookupKey_eq_none.mpr
        intro r hr hid
        exact hnodup.1 (hid ▸ hnames r hr)
      · exact hlookup pair hpair
    | some r =>
      obtain ⟨hid, -⟩ := hfits r rfl
      rw [filterMap_cons_some (f := id) rfl]
      refine ⟨?_, fun r' hr' => ?_, fun pair hpair => ?_⟩
      · rw [map_cons, nodup_cons, hid]
        refine ⟨fun hmem => hnodup.1 ?_, hkeys⟩
        obtain ⟨r', hr', hid'⟩ := mem_map.mp hmem
        exact hid' ▸ hnames r' hr'
      · rw [mem_cons] at hr'
        rcases hr' with rfl | hr'
        · rw [hid]
          exact mem_cons_self
        · exact mem_cons_of_mem _ (hnames r' hr')
      · rw [zip_cons_cons, mem_cons] at hpair
        rcases hpair with rfl | hpair
        · rw [lookupKey_cons, if_pos hid]
        · have hother : pair.1.1 ∈ entries.map Prod.fst :=
            mem_map_of_mem (of_mem_zip hpair).1
          rw [lookupKey_cons, if_neg, hlookup pair hpair]
          rintro hsame
          exact hnodup.1 (hid.symm.trans hsame ▸ hother)

/-! ### The projection -/

variable [ComposingNormalizer]

omit [Platform B] [DecidableEq B] [ComposingNormalizer] in
/-- A label changes nothing but the title and the folder. -/
theorem label_frame (document : MetadataDocument) (row : LibraryRow) :
    (MetadataDocument.label document row).meetingId = row.meetingId ∧
      (MetadataDocument.label document row).unlabelled = row.unlabelled := by
  unfold MetadataDocument.label
  split <;> exact ⟨rfl, rfl⟩

omit [DecidableEq B] in
theorem classified_labelled (rows : List LibraryRow) (quarantined : Nat) (name : String) :
    (labelled storage excluded rows quarantined).classified name =
      (lookupKey LibraryRow.meetingId name rows).map LibraryRow.unlabelled := by
  unfold labelled
  split
  · rename_i document hdocument
    split
    · unfold LibraryProjection.classified
      rw [lookupKey_map (fun row => (label_frame document row).1), Option.map_map]
      congr 1
      funext row
      exact (label_frame document row).2
    · rfl
  · rfl

section

omit [Platform B] [DecidableEq B] [ComposingNormalizer]

theorem nodup_listedMeetings :
    ((listedMeetings storage excluded).map Prod.fst).Nodup := by
  unfold listedMeetings
  refine ((perm_insertionSort _ _).map Prod.fst).nodup_iff.mpr ?_
  exact storage.meetings.nodup_entries.sublist (filter_sublist.map Prod.fst)

theorem mem_listedMeetings {name : String} {m : MeetingDirectory B} :
    (name, m) ∈ listedMeetings storage excluded ↔
      storage.meetings.entry name = some m ∧ validOpaqueId name = true ∧ name ∉ excluded := by
  unfold listedMeetings
  rw [mem_insertionSort, mem_filter, Directory.mem_entries]
  simp

end

theorem rebuild_eq_ok {projection : LibraryProjection} :
    rebuild storage limits source excluded = .ok projection ↔
      Starts storage limits excluded ∧
      ∃ rows, inspectAll limits source (listedMeetings storage excluded) 0 = .ok rows ∧
        projection = labelled storage excluded ((rows.filterMap id).insertionSort meetingOrder)
          (rows.filter Option.isNone).length := by
  unfold rebuild
  rw [check_bind_eq_ok, check_bind_eq_ok]
  simp only [bind_eq_ok, refuseIf_eq_ok, not_or, Nat.not_lt, Bool.not_eq_false]
  constructor
  · rintro ⟨⟨hmeetings, hbytes, htranscript⟩, hprivate, _, hfits, rows, hrows, hprojection⟩
    cases hprojection
    exact ⟨⟨hmeetings, hbytes, htranscript, hprivate, hfits⟩, rows, hrows, rfl⟩
  · rintro ⟨hstarts, rows, hrows, rfl⟩
    exact ⟨⟨hstarts.meetings, hstarts.bytes, hstarts.transcript⟩, hstarts.isPrivate, (),
      hstarts.fits, rows, hrows, rfl⟩

/-- The projection says of each listed meeting what its verdict was. -/
theorem classified_of_rows {quarantined : Nat}
    (h : inspectAll limits source (listedMeetings storage excluded) 0 = .ok rows)
    {pair : (String × MeetingDirectory B) × Option LibraryRow}
    (hpair : pair ∈ (listedMeetings storage excluded).zip rows) :
    (labelled storage excluded ((rows.filterMap id).insertionSort meetingOrder)
      quarantined).classified pair.1.1 = pair.2 := by
  have hfits := inspectAll_fits h
  obtain ⟨hkeys, -, hlookup⟩ := lookup_of_fits hfits nodup_listedMeetings
  have hperm : List.Perm (rows.filterMap id) ((rows.filterMap id).insertionSort meetingOrder) :=
    (perm_insertionSort _ _).symm
  rw [classified_labelled, ← lookupKey_perm hperm hkeys, hlookup pair hpair]
  cases hrow : pair.2 with
  | none => rfl
  | some row =>
    have hfit := forall₂_zip hfits hpair row hrow
    rw [Option.map_some, hfit.2]

/-- Every listed meeting has a row or is counted as in quarantine. -/
theorem rebuild_counts {projection : LibraryProjection}
    (h : rebuild storage limits source excluded = .ok projection) :
    projection.rows.length + projection.quarantinedMeetings =
      (listedMeetings storage excluded).length := by
  obtain ⟨-, rows, hrows, rfl⟩ := rebuild_eq_ok.mp h
  have hrowsLength : ∀ (found : List LibraryRow) (quarantined : Nat),
      (labelled storage excluded found quarantined).rows.length = found.length ∧
        (labelled storage excluded found quarantined).quarantinedMeetings = quarantined := by
    intro found quarantined
    unfold labelled
    split
    · split
      · exact ⟨length_map _, rfl⟩
      · exact ⟨rfl, rfl⟩
    · exact ⟨rfl, rfl⟩
  obtain ⟨hlength, hquarantined⟩ := hrowsLength ((rows.filterMap id).insertionSort meetingOrder)
    (rows.filter Option.isNone).length
  rw [hlength, hquarantined, length_insertionSort, (inspectAll_fits hrows).length_eq]
  clear hrows hlength hquarantined h
  induction rows with
  | nil => rfl
  | cons row rest ih => cases row <;> simp at ih ⊢ <;> omega

/-! ### A library of one meeting -/

variable {name : String} {m : MeetingDirectory B}

omit [Platform B] [DecidableEq B] [ComposingNormalizer] in
theorem listedMeetings_only (h : (name, m) ∈ listedMeetings storage excluded) :
    listedMeetings (storage.only name m) excluded = [(name, m)] := by
  obtain ⟨-, hvalid, hexcluded⟩ := mem_listedMeetings.mp h
  have hentries : (storage.only name m).meetings.entries = [(name, m)] :=
    Directory.entries_put_of_absent (d := Directory.empty) m rfl
  unfold listedMeetings
  rw [hentries, filter_cons_of_pos (by simp [hvalid, hexcluded])]
  rfl

omit [ComposingNormalizer] in
theorem inspectAll_singleton : inspectAll limits source [(name, m)] 0 = .ok rows ↔
      ∃ row, verdict (readAlone limits source (name, m)) = .ok row ∧ rows = [row] := by
  unfold inspectAll runEach readAlone
  simp only [runEach, bind_eq_ok]
  constructor
  · rintro ⟨row, hrow, later, hlater, heq⟩
    cases hlater
    cases heq
    exact ⟨row, hrow, rfl⟩
  · rintro ⟨row, hrow, rfl⟩
    exact ⟨row, hrow, [], rfl, rfl⟩

/-- The library of one listed meeting answers when the inspection of the meeting
lets it. -/
theorem rebuild_only (hstarts : Starts storage limits excluded)
    (h : (name, m) ∈ listedMeetings storage excluded) (row : Option LibraryRow) :
    (∃ alone, rebuild (storage.only name m) limits source excluded = .ok alone ∧
      alone.classified name = row) ↔ verdict (readAlone limits source (name, m)) = .ok row := by
  have honly := listedMeetings_only h
  have hstartsOnly : Starts (storage.only name m) limits excluded := by
    refine ⟨hstarts.meetings, hstarts.bytes, hstarts.transcript, hstarts.isPrivate, ?_⟩
    rw [honly]
    exact Nat.one_le_iff_ne_zero.mpr hstarts.meetings
  have hclassified : ∀ {found : Option LibraryRow} {quarantined : Nat},
      verdict (readAlone limits source (name, m)) = .ok found →
        (labelled (storage.only name m) excluded (([found].filterMap id).insertionSort meetingOrder)
          quarantined).classified name = found := by
    intro found quarantined hfound
    have hrows : inspectAll limits source (listedMeetings (storage.only name m) excluded) 0 =
        .ok [found] := by
      rw [honly]
      exact inspectAll_singleton.mpr ⟨found, hfound, rfl⟩
    have hpair : ((name, m), found) ∈
        (listedMeetings (storage.only name m) excluded).zip [found] := by
      rw [honly]
      exact mem_cons_self
    exact classified_of_rows hrows hpair
  constructor
  · rintro ⟨alone, halone, hrow⟩
    obtain ⟨-, rows, hrows, rfl⟩ := rebuild_eq_ok.mp halone
    rw [honly] at hrows
    obtain ⟨found, hfound, rfl⟩ := inspectAll_singleton.mp hrows
    rw [hclassified hfound] at hrow
    rw [← hrow, hfound]
  · intro hrow
    refine ⟨_, rebuild_eq_ok.mpr ⟨hstartsOnly, [row], ?_, rfl⟩, hclassified hrow⟩
    rw [honly]
    exact inspectAll_singleton.mpr ⟨row, hrow, rfl⟩

/-- Isolation, said of the verdicts. -/
theorem isolated_iff_verdicts :
    Isolated storage limits source excluded ↔
      (Starts storage limits excluded → ∀ rows,
        inspectAll limits source (listedMeetings storage excluded) 0 = .ok rows →
        ∀ pair ∈ (listedMeetings storage excluded).zip rows,
          verdict (readAlone limits source pair.1) = .ok pair.2) := by
  constructor
  · intro h hstarts rows hrows pair hpair
    have hlisted := (of_mem_zip hpair).1
    have halone := h _ (rebuild_eq_ok.mpr ⟨hstarts, rows, hrows, rfl⟩) pair.1.1 pair.1.2 hlisted
    rw [classified_of_rows hrows hpair] at halone
    exact (rebuild_only hstarts hlisted pair.2).mp halone
  · intro h projection hprojection name m hlisted
    obtain ⟨hstarts, rows, hrows, rfl⟩ := rebuild_eq_ok.mp hprojection
    obtain ⟨row, hpair⟩ : ∃ row, ((name, m), row) ∈ (listedMeetings storage excluded).zip rows := by
      have hlength := (inspectAll_fits hrows).length_eq
      have hmem : (name, m) ∈ ((listedMeetings storage excluded).zip rows).map Prod.fst := by
        rw [map_fst_zip (Nat.le_of_eq hlength)]
        exact hlisted
      obtain ⟨⟨entry, row⟩, hpair, heq⟩ := mem_map.mp hmem
      subst heq
      exact ⟨row, hpair⟩
    have hverdict := h hstarts rows hrows ((name, m), row) hpair
    rw [classified_of_rows hrows hpair]
    exact (rebuild_only hstarts hlisted row).mpr hverdict

/-! ## Where isolation fails -/

/-- A build in which a revision in the chain of one meeting overdraws the
budget: the meetings before it are settled and paid for, no meeting after it has
a record that opens, and on its own the meeting would not be in quarantine. -/
structure ChainOverdraft (storage : LibraryStorage B) (limits : ReadLimits) (source : ClaimSource)
    (excluded : Finset String) (before : List (String × MeetingDirectory B))
    (entry : String × MeetingDirectory B) (after : List (String × MeetingDirectory B)) : Prop where
  starts : Starts storage limits excluded
  listed : listedMeetings storage excluded = before ++ entry :: after
  settled : ∀ other ∈ before, ∃ row, verdict (inspectEntry limits source other).answer = .ok row
  paid : spentOn limits source before ≤ limits.maxTotalBytes
  overdrawn : overdrawn limits.maxTotalBytes (spentOn limits source before)
    (inspectEntry limits source entry).charges = some .quarantine
  unopened : ∀ other ∈ after, ∃ refusal, openFile other.2 "meeting.json" = .error refusal
  readable : readAlone limits source entry ≠ .error .quarantine

variable {before after : List (String × MeetingDirectory B)} {entry : String × MeetingDirectory B}

section

omit [ComposingNormalizer]

/-- A meeting whose charges fit comes to the same on its own. -/
theorem readAlone_of_paid {total : Nat} (htotal : total ≤ limits.maxTotalBytes)
    (h : overdrawn limits.maxTotalBytes total (inspectEntry limits source entry).charges = none) :
    readAlone limits source entry = (inspectEntry limits source entry).answer := by
  have hfirst := not_overdrawn_of_le (Nat.zero_le total) htotal h
  unfold readAlone
  rw [run_of_not_overdrawn hfirst]

/-- A meeting whose record cannot be opened is in quarantine on its own. -/
theorem readAlone_of_unopened {refusal : MeetingError}
    (h : openFile entry.2 "meeting.json" = .error refusal) :
    readAlone limits source entry = .error .quarantine := by
  unfold readAlone inspectEntry
  rw [inspectMeeting_of_unopened h]
  rfl

/-- The verdicts of meetings whose charges fit are those they have alone. -/
theorem readAlone_of_fits : ∀ {entries : List (String × MeetingDirectory B)} {total : Nat}
    {rows : List (Option LibraryRow)}, total + spentOn limits source entries ≤ limits.maxTotalBytes →
    List.Forall₂ (fun entry row => verdict (inspectEntry limits source entry).answer = .ok row)
      entries rows →
    List.Forall₂ (fun entry row => verdict (readAlone limits source entry) = .ok row)
      entries rows := by
  intro entries
  induction entries with
  | nil =>
    intro total rows _ h
    cases h
    exact .nil
  | cons entry rest ih =>
    intro total rows hfits h
    unfold spentOn at hfits
    rw [spentBy_cons] at hfits
    cases h with
    | cons hrow hrest =>
      have hspent : total + charged (inspectEntry limits source entry).charges +
          spentOn limits source rest ≤ limits.maxTotalBytes := by
        unfold spentOn
        omega
      have hrest := ih hspent hrest
      have hpaid : overdrawn limits.maxTotalBytes total
          (inspectEntry limits source entry).charges = none :=
        (overdrawn_eq_none_iff (by omega)).mpr (by omega)
      refine .cons ?_ hrest
      rw [readAlone_of_paid (by omega) hpaid]
      exact hrow

/-- Such a build goes on, with the meeting in quarantine. -/
theorem ChainOverdraft.exists_rows
    (h : ChainOverdraft storage limits source excluded before entry after) :
    ∃ rows, inspectAll limits source (listedMeetings storage excluded) 0 = .ok rows ∧
      (entry, none) ∈ (listedMeetings storage excluded).zip rows := by
  obtain ⟨first, hfirst⟩ := exists_mapM_eq_ok.mpr h.settled
  have hbroke : ∀ other ∈ after, ∃ row,
      verdict (inspectEntry limits source other).broke = .ok row := by
    intro other hother
    obtain ⟨refusal, hrefusal⟩ := h.unopened other hother
    refine ⟨none, ?_⟩
    unfold inspectEntry
    rw [inspectMeeting_of_unopened hrefusal]
    rfl
  obtain ⟨later, hlater⟩ := exists_mapM_eq_ok.mpr hbroke
  have hpaid : 0 + spentOn limits source before ≤ limits.maxTotalBytes := by
    rw [Nat.zero_add]
    exact h.paid
  have hover : Foundation.overdrawn limits.maxTotalBytes (0 + spentOn limits source before)
      (inspectEntry limits source entry).charges = some .quarantine := by
    rw [Nat.zero_add]
    exact h.overdrawn
  refine ⟨first ++ none :: later, ?_, ?_⟩
  · unfold inspectAll
    rw [h.listed, runEach_of_overdrawn hpaid hover, hfirst, hlater]
    rfl
  · rw [h.listed, zip_append (mapM_eq_ok_iff_forall₂.mp hfirst).length_eq, mem_append]
    exact .inr mem_cons_self

/-- A build that goes on after an overdraft: it was that of a revision in a
chain, and nothing was read after it. -/
theorem inspectAll_of_overdrawn {e : MeetingInspectionError}
    (hpaid : 0 + spentOn limits source before ≤ limits.maxTotalBytes)
    (hover : overdrawn limits.maxTotalBytes (0 + spentOn limits source before)
      (inspectEntry limits source entry).charges = some e)
    (hrows : inspectAll limits source (before ++ entry :: after) 0 = .ok rows) : e = .quarantine ∧
      (∀ other ∈ before, ∃ row, verdict (inspectEntry limits source other).answer = .ok row) ∧
      (∀ other ∈ after, ∃ refusal, openFile other.2 "meeting.json" = .error refusal) ∧
      ∃ first later, rows = first ++ none :: later ∧
        List.Forall₂ (fun other row => verdict (inspectEntry limits source other).answer = .ok row)
          before first ∧
        List.Forall₂ (fun other row => (∃ refusal, openFile other.2 "meeting.json" = .error refusal) ∧
          row = none) after later := by
  unfold inspectAll at hrows
  rw [runEach_of_overdrawn hpaid hover] at hrows
  simp only [bind_eq_ok] at hrows
  obtain ⟨first, hfirst, row, hrow, later, hlater, heq⟩ := hrows
  cases heq
  have hchain : e = .quarantine ∧ row = none := by
    cases e <;> cases hrow
    exact ⟨rfl, rfl⟩
  obtain ⟨rfl, rfl⟩ := hchain
  refine ⟨rfl, exists_mapM_eq_ok.mp ⟨first, hfirst⟩, fun other hother => ?_, first, later, rfl,
    mapM_eq_ok_iff_forall₂.mp hfirst,
    (mapM_eq_ok_iff_forall₂.mp hlater).imp fun _ _ hbroke => verdict_broke hbroke⟩
  obtain ⟨row, hbroke⟩ := exists_mapM_eq_ok.mp ⟨later, hlater⟩ other hother
  exact (verdict_broke hbroke).1

end

/-- A build isolates its meetings unless a revision in a chain overdraws the
budget, unnoticed. -/
theorem isolated_iff_not_overdrawn :
    Isolated storage limits source excluded ↔
      ¬ ∃ before entry after, ChainOverdraft storage limits source excluded before entry after := by
  rw [isolated_iff_verdicts]
  constructor
  · rintro h ⟨before, entry, after, hover⟩
    obtain ⟨rows, hrows, hpair⟩ := hover.exists_rows
    have hverdict := h hover.starts _ hrows _ hpair
    exact hover.readable (verdict_eq_none hverdict)
  · intro h hstarts rows hrows
    suffices hall : List.Forall₂ (fun entry row =>
        verdict (readAlone limits source entry) = .ok row)
        (listedMeetings storage excluded) rows from
      fun pair hpair => List.forall₂_zip hall hpair
    by_cases hfits : 0 + spentOn limits source (listedMeetings storage excluded) ≤
        limits.maxTotalBytes
    · unfold inspectAll at hrows
      rw [Spending.runEach_of_le hfits] at hrows
      exact readAlone_of_fits hfits (mapM_eq_ok_iff_forall₂.mp hrows)
    · obtain ⟨before, entry, after, e, hlisted, hpaid, hover⟩ :=
        Spending.exists_overdraft (Nat.zero_le _) (Nat.not_le.mp hfits)
      rw [hlisted] at hrows
      obtain ⟨rfl, hsettled, hunopened, first, later, rfl, hfirst, hlater⟩ :=
        inspectAll_of_overdrawn hpaid hover hrows
      have hquarantined : readAlone limits source entry = .error .quarantine := by
        by_contra hreadable
        rw [Nat.zero_add] at hpaid hover
        exact h ⟨before, entry, after, hstarts, hlisted, hsettled, hpaid, hover, hunopened,
          hreadable⟩
      rw [hlisted]
      refine List.rel_append (readAlone_of_fits hpaid hfirst) (.cons ?_ (hlater.imp ?_))
      · rw [hquarantined]
        rfl
      · rintro other row ⟨⟨refusal, hrefusal⟩, rfl⟩
        rw [readAlone_of_unopened hrefusal]
        rfl

end Verdicts

/-! ## A restored transcript after a broken meeting -/

section Sample

/-- A transcript of one turn, which is withheld. -/
def listedBase : Value := .object
  [("schema", .string "capture-transcript/1"), ("source", .string "local"),
    ("attribution", .string "none"), ("capture_health", .object []),
    ("turns", .array [.object [("start", .natural 0), ("end", .natural 2),
      ("text", .string "hello"), ("gated", .bool true)]])]

def listedBaseSha256 : String := "3a0d3c5b7a99e8f60412233445566778899aabbccddeeff00112233445566778"

def listedViewSha256 : String := "4b1c4d6f8b0a9f7e1523344556677889900aabbccddeeff0112233445566778a"

/-- The view that shows it. -/
def listedView : TranscriptView where
  schema := .v1
  meetingId := sampleMeetingId
  baseTranscriptSha256 := listedBaseSha256
  parentTranscriptSha256 := listedBaseSha256
  restoredSourceTurnIndices := [0]

abbrev ListedBytes : Type := Measured
  [(.pretty listedBase, listedBaseSha256), (.pretty (Serde.toValue listedView), listedViewSha256)]

def listedMeeting : MeetingRecord where
  schema := .v2
  meetingId := sampleMeetingId.text
  lifecycle := .transcriptReady
  retention := {
    rule := .untilManualDeletion
    policySha256 := emptySha256
    nextDeletionAtEpochSeconds := none
    state := .retained
    deletionReceipt := none }
  artifacts := {
    attempt := ⟨"attempt.json", emptySha256⟩
    ownership := some ⟨"ownership.json", emptySha256⟩
    captureSession := some ⟨"capture/session.json", emptySha256⟩
    microphoneAudio := some ⟨microphoneAudioPath, emptySha256⟩
    systemAudio := some ⟨systemAudioPath, emptySha256⟩
    currentTranscript := some ⟨revisionPath listedViewSha256, listedViewSha256⟩
    currentNote := none }
  pendingStorageOperation := none

def listedAttempt : Value := .object
  [("schema", .string "capture-attempt/1"), ("meeting_id", .string sampleMeetingId.text),
    ("attempt_id", .string sampleOperationId.text),
    ("created_at_epoch_seconds", .natural 1754000000),
    ("application_build_sha256", .string emptySha256),
    ("participant_notice_version", .string noticeVersion),
    ("operator_attestation", .object [("participantsConsented", .bool true),
      ("headphones", .bool true), ("operatorAlone", .bool true)]),
    ("retention_policy_sha256", .string emptySha256)]

def listedDirectory : MeetingDirectory ListedBytes where
  record := some (.text (Serde.toValue listedMeeting) 1500)
  temporaries := []
  tree := List.toAList [⟨.entry [], .directory 0o700⟩,
    ⟨.entry ["attempt.json"], .file 0o600 (.text listedAttempt 600)⟩,
    ⟨.entry ["ownership.json"], .file 0o600 (ByteString.empty)⟩,
    ⟨.entry ["capture"], .directory 0o700⟩,
    ⟨.entry ["capture", "session.json"], .file 0o600 (ByteString.empty)⟩,
    ⟨.entry ["transcript"], .directory 0o700⟩,
    ⟨.entry (components (revisionPath listedBaseSha256)), .file 0o600 (.text listedBase 250)⟩,
    ⟨.entry (components (revisionPath listedViewSha256)), .file 0o600 (toVecPretty listedView)⟩]
  queue := none

def listedEntry : String × MeetingDirectory ListedBytes := (sampleMeetingId.text, listedDirectory)

/-- A meeting whose record is one byte that is no JSON. -/
def brokenDirectory : MeetingDirectory ListedBytes where
  record := some ⟨.raw "x" 1, none⟩
  temporaries := []
  tree := List.toAList [⟨.entry [], .directory 0o700⟩]
  queue := none

def brokenEntry : String × MeetingDirectory ListedBytes :=
  ("00000000-0000-4000-8000-000000000000", brokenDirectory)

def listedStorage : LibraryStorage ListedBytes where
  meetings := (Directory.empty.put brokenEntry.1 brokenEntry.2).put listedEntry.1 listedEntry.2
  others := []
  library := ∅

/-- As many bytes as the second meeting reads. -/
def listedLimits : ReadLimits := ⟨100, 2682, 1000000⟩

def noProjector : ClaimSource := .projector ⟨false, fun _ _ => .error .unavailable⟩

/-- Labels as they are. -/
abbrev plainLabels : ComposingNormalizer := ⟨id⟩

theorem inspectEntry_listed :
    ((inspectEntry listedLimits noProjector listedEntry).charges.map fun charge =>
        (charge.amount, charge.overdraft),
      (inspectEntry listedLimits noProjector listedEntry).answer.toOption.isSome) =
    ([(1500, .capacityExceeded), (0, .capacityExceeded), (0, .capacityExceeded),
      (600, .capacityExceeded), (332, .capacityExceeded), (250, .quarantine)], true) := by
  decide +kernel

theorem listedMeetings_sample :
    listedMeetings listedStorage ∅ = [brokenEntry, listedEntry] := rfl

theorem charges_listed : (inspectEntry listedLimits noProjector listedEntry).charges =
    [⟨1500, .capacityExceeded⟩, ⟨0, .capacityExceeded⟩, ⟨0, .capacityExceeded⟩,
      ⟨600, .capacityExceeded⟩, ⟨332, .capacityExceeded⟩, ⟨250, .quarantine⟩] := by
  have hlisted := inspectEntry_listed
  rw [Prod.mk.injEq] at hlisted
  refine map_injective_iff.mpr ?_ hlisted.1
  rintro ⟨a, e⟩ ⟨a', e'⟩ h
  cases h
  rfl

/-- On its own the meeting is in the library. -/
theorem readAlone_listed : ∃ row, readAlone listedLimits noProjector listedEntry = .ok row := by
  have hpaid : overdrawn listedLimits.maxTotalBytes 0
      (inspectEntry listedLimits noProjector listedEntry).charges = none := by
    rw [charges_listed]
    rfl
  rw [readAlone_of_paid (Nat.zero_le _) hpaid]
  have hlisted := inspectEntry_listed
  rw [Prod.mk.injEq] at hlisted
  cases h : (inspectEntry listedLimits noProjector listedEntry).answer with
  | ok row => exact ⟨row, rfl⟩
  | error =>
    rw [h] at hlisted
    cases hlisted.2

/-- The revision that the view builds on overdraws the budget after the byte of
the broken meeting. -/
theorem chainOverdraft_sample [ComposingNormalizer] :
    ChainOverdraft listedStorage listedLimits noProjector ∅ [brokenEntry] listedEntry [] := by
  have hbroken : inspectEntry listedLimits noProjector brokenEntry =
      ⟨[⟨1, .capacityExceeded⟩], .error .quarantine⟩ := rfl
  have hspent : spentOn listedLimits noProjector [brokenEntry] = 1 := by
    unfold spentOn
    rw [spentBy_cons, hbroken]
    rfl
  constructor
  · exact ⟨by decide, by decide, by decide, rfl, by rw [listedMeetings_sample]; decide⟩
  · exact listedMeetings_sample
  · intro other hother
    rw [mem_singleton.mp hother, hbroken]
    exact ⟨none, rfl⟩
  · rw [hspent]
    decide
  · rw [hspent, charges_listed]
    rfl
  · exact fun _ h => absurd h not_mem_nil
  · intro h
    obtain ⟨row, hrow⟩ := readAlone_listed
    rw [h] at hrow
    cases hrow

/-- The library of that meeting alone has it for its row. -/
theorem exists_rebuild_listed [ComposingNormalizer] : ∃ projection row,
    rebuild (listedStorage.only listedEntry.1 listedEntry.2) listedLimits noProjector ∅ =
      .ok projection ∧ projection.rows = [row] := by
  have hlisted : listedEntry ∈ listedMeetings listedStorage ∅ := by
    rw [listedMeetings_sample]
    exact mem_cons_of_mem _ mem_cons_self
  obtain ⟨row, hrow⟩ := readAlone_listed
  obtain ⟨projection, hprojection, hclassified⟩ :=
    (rebuild_only chainOverdraft_sample.starts hlisted (some row)).mpr (by
      change verdict (readAlone listedLimits noProjector listedEntry) = _
      rw [hrow]
      rfl)
  have hcounts := rebuild_counts hprojection
  rw [listedMeetings_only hlisted, length_singleton] at hcounts
  refine ⟨projection, ?_⟩
  cases hrows : projection.rows with
  | nil =>
    rw [LibraryProjection.classified, hrows] at hclassified
    cases hclassified
  | cons first rest =>
    rw [hrows, length_cons] at hcounts
    have hrest : rest = [] := eq_nil_of_length_eq_zero (by omega)
    subst hrest
    exact ⟨first, hprojection, rfl⟩

/-- The byte of the broken meeting puts the other one in quarantine, which would
be in the library on its own. -/
theorem not_isolated_after_broken :
    ¬ @Isolated ListedBytes _ _ plainLabels listedStorage listedLimits noProjector ∅ := by
  let _ := plainLabels
  rw [isolated_iff_verdicts]
  intro h
  obtain ⟨rows, hrows, hpair⟩ := chainOverdraft_sample.exists_rows
  have hverdict := h chainOverdraft_sample.starts _ hrows _ hpair
  exact chainOverdraft_sample.readable (verdict_eq_none hverdict)

end Sample

end LibraryRead

end YawnApp.SessionCore
