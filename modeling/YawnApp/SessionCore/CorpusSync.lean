import YawnApp.SessionCore.CorpusIndex
import YawnApp.SessionCore.LibraryRows

set_option autoImplicit false

/-!
# A sync leaves what a rebuild would

A sync that finds the digest of its projection in the database writes nothing.
That is right because the database remembers a digest only as long as its tables
are those the digest was taken for, through any run of calls that a crash may
stop between the transaction and the digest, and because the text that is hashed
can be read back.
-/

namespace YawnApp.SessionCore

open YawnApp.Foundation LibraryRead List Durable

namespace CorpusIndex

variable [TextDigest] {row : DerivedRow} {meetings : List String} {next : Filling}

/-! ## Calls -/

inductive CorpusCall where
  | sync (projection : LibraryProjection) (excluded : Finset String)
  | replace (projection : LibraryProjection) (excluded : Finset String)
  | storeVectors (identity : EmbedderIdentity) (vectors : List WindowVector)

namespace CorpusCall

/-- The program of a call, its answer forgotten. -/
def program : CorpusCall → Durable Index CorpusIndexError Unit
  | sync projection excluded => do
    let _ ← syncIfChangedExcluding projection excluded
    return ()
  | replace projection excluded => do
    let _ ← replaceFromProjectionExcluding projection excluded
    return ()
  | storeVectors identity vectors => do
    let _ ← storeWindowVectors identity vectors
    return ()

def states (call : CorpusCall) (index : Index) : List Index := (call.program.exec index).trace

/-- What a call makes the index be about. -/
def target : CorpusCall → Option (LibraryProjection × Finset String)
  | sync projection excluded => some (projection, excluded)
  | replace projection excluded => some (projection, excluded)
  | storeVectors _ _ => none

end CorpusCall

/-! ## What is said of the index -/

/-- Every vector has its window. -/
def Bound (index : Index) : Prop :=
  ∀ vector ∈ index.vectors, VectorRow.bound index.tables.window vector = true

/-- A table has a row of the meeting. -/
structure Tables.Avoids (tables : Tables) (meetingId : String) : Prop where
  meeting : ∀ row ∈ tables.meeting, row.meetingId ≠ meetingId
  turn : ∀ row ∈ tables.turn, row.meetingId ≠ meetingId
  window : ∀ row ∈ tables.window, row.meetingId ≠ meetingId
  segment : ∀ row ∈ tables.segment, row.meetingId ≠ meetingId

/-- The tables are those of a fresh index that the projection filled. -/
def Reflects (index : Index) (projection : LibraryProjection) (excluded : Finset String) : Prop :=
  ∃ outcome, ((replaceFromProjectionExcluding projection excluded).exec Index.fresh).result =
      .ok outcome ∧
    index.tables =
      (((replaceFromProjectionExcluding projection excluded).exec Index.fresh).final
        Index.fresh).tables

/-- What a sync or a replacement that answers leaves behind. -/
structure Synced (projection : LibraryProjection) (excluded : Finset String)
    (before after : Index) : Prop where
  reflects : Reflects after projection excluded
  excluded : ∀ id ∈ excluded, after.tables.Avoids id ∧ ∀ vector ∈ after.vectors,
    vector.meetingId ≠ id
  bound : Bound after
  kept : ∀ vector ∈ before.vectors, VectorRow.bound after.tables.window vector = true →
    vector ∈ after.vectors

/-! ## Filling -/

/-- All rows of the tables are about these meetings. -/
structure Tables.Within (tables : Tables) (meetings : List String) : Prop where
  meeting : ∀ row ∈ tables.meeting, row.meetingId ∈ meetings
  turn : ∀ row ∈ tables.turn, row.meetingId ∈ meetings
  window : ∀ row ∈ tables.window, row.meetingId ∈ meetings
  segment : ∀ row ∈ tables.segment, row.meetingId ∈ meetings

section

omit [TextDigest]

theorem insertRow_eq_ok {κ ρ : Type} [DecidableEq κ] {key : ρ → κ} {row : ρ} {table new : List ρ}
    (h : insertRow key row table = .ok new) : new = table ++ [row] := by
  unfold insertRow at h
  split at h
  · cases h
  · exact (Except.ok.inj h).symm

/-- A new row about one of the meetings. -/
theorem mem_insertRow {κ ρ : Type} [DecidableEq κ] {key : ρ → κ} {row : ρ} {table new : List ρ}
    {P : ρ → Prop} (h : insertRow key row table = .ok new) (htable : ∀ r ∈ table, P r)
    (hrow : P row) : ∀ r ∈ new, P r := by
  intro r hr
  rw [insertRow_eq_ok h, mem_append, mem_singleton] at hr
  rcases hr with hr | rfl
  · exact htable r hr
  · exact hrow

theorem insertTurn_within {meetingId : String} {filling : Filling} {turn : DerivedTurn}
    (hid : meetingId ∈ meetings) (h : filling.tables.Within meetings)
    (hstep : insertTurn meetingId filling turn = .ok next) : next.tables.Within meetings := by
  unfold insertTurn at hstep
  simp only [bind_eq_ok] at hstep
  obtain ⟨visible, -, table, htable, heq⟩ := hstep
  cases heq
  exact ⟨h.meeting, mem_insertRow htable h.turn hid, h.window, h.segment⟩

theorem insertSegment_within {meetingId : String} {windowIndex : Nat} {tables next : Tables}
    {entry : CorpusWindow.WindowSegment × Nat} (hid : meetingId ∈ meetings)
    (h : tables.Within meetings)
    (hstep : insertSegment meetingId windowIndex tables entry = .ok next) :
    next.Within meetings := by
  unfold insertSegment at hstep
  simp only [bind_eq_ok] at hstep
  obtain ⟨_, -, _, -, _, -, _, -, table, htable, heq⟩ := hstep
  cases heq
  exact ⟨h.meeting, h.turn, h.window, mem_insertRow htable h.segment hid⟩

end

theorem insertWindow_within {filling : Filling} {window : CorpusWindow.Window}
    (hid : row.meetingId ∈ meetings) (h : filling.tables.Within meetings)
    (hstep : insertWindow row filling window = .ok next) : next.tables.Within meetings := by
  unfold insertWindow at hstep
  simp only [bind_eq_ok] at hstep
  obtain ⟨_, -, _, -, _, -, table, htable, tables, htables, heq⟩ := hstep
  cases heq
  exact foldlM_eq_ok_invariant (fun _ _ _ _ => insertSegment_within hid)
    (show Tables.Within { filling.tables with window := table } meetings from
      ⟨h.meeting, h.turn, mem_insertRow htable h.window hid, h.segment⟩) htables

theorem insertMeeting_within {filling : Filling} (hid : row.meetingId ∈ meetings)
    (h : filling.tables.Within meetings) (hstep : insertMeeting filling row = .ok next) :
    next.tables.Within meetings := by
  unfold insertMeeting at hstep
  simp only [bind_eq_ok] at hstep
  obtain ⟨_, -, table, htable, middle, hturns, hwindows⟩ := hstep
  have hmiddle := foldlM_eq_ok_invariant (P := fun filling => filling.tables.Within meetings)
    (fun _ _ _ _ => insertTurn_within hid)
    (show Tables.Within { filling.tables with meeting := table } meetings from
      ⟨mem_insertRow htable h.meeting hid, h.turn, h.window, h.segment⟩) hturns
  exact foldlM_eq_ok_invariant (P := fun filling => filling.tables.Within meetings)
    (fun _ _ _ _ => insertWindow_within hid) hmiddle hwindows

/-- The tables hold nothing of a meeting that is not among the rows. -/
theorem fill_within {rows : List DerivedRow} {filling : Filling} (h : fill rows = .ok filling) :
    filling.tables.Within (rows.map DerivedRow.meetingId) := by
  refine foldlM_eq_ok_invariant
    (P := fun filling => filling.tables.Within (rows.map DerivedRow.meetingId))
    (fun row hrow _ _ => insertMeeting_within (mem_map_of_mem hrow)) ?_ h
  exact ⟨fun _ h => absurd h not_mem_nil, fun _ h => absurd h not_mem_nil,
    fun _ h => absurd h not_mem_nil, fun _ h => absurd h not_mem_nil⟩

theorem fill_avoids {projection : LibraryProjection} {excluded : Finset String} {filling : Filling}
    (h : fill (indexedRows projection excluded) = .ok filling) {id : String} (hid : id ∈ excluded) :
    filling.tables.Avoids id := by
  have hnot : id ∉ (indexedRows projection excluded).map DerivedRow.meetingId := by
    intro hmem
    obtain ⟨row, hrow, rfl⟩ := mem_map.mp hmem
    have := (mem_filter.mp hrow).2
    rw [decide_eq_true_eq] at this
    exact this hid
  have hwithin := fill_within h
  exact ⟨fun row hrow heq => hnot (heq ▸ hwithin.meeting row hrow),
    fun row hrow heq => hnot (heq ▸ hwithin.turn row hrow),
    fun row hrow heq => hnot (heq ▸ hwithin.window row hrow),
    fun row hrow heq => hnot (heq ▸ hwithin.segment row hrow)⟩

/-! ## Reading the hashed text back -/

omit [TextDigest] in
theorem digestParts_plain {row : LibraryRow} (h : row.IsPlain) :
    ∀ part ∈ digestParts (derived row), ∀ text, part = some text → Plain text := by
  intro part hpart text htext
  unfold digestParts at hpart
  simp only [mem_cons, not_mem_nil, or_false] at hpart
  rcases hpart with rfl | rfl | rfl | rfl | rfl | rfl | rfl | rfl
  · cases htext
    exact h.meetingId
  · cases htext
    exact h.meetingRecord
  · cases htext
    exact h.attempt
  · exact h.transcript text htext
  · exact h.noteJson text htext
  · exact h.noteMarkdown text htext
  · exact h.title text htext
  · exact h.folder text htext

/-- The parts of a row as they are hashed. -/
def hashedParts (row : DerivedRow) : List (List Char) :=
  (digestParts row).map fun part => (part.getD missingPart).toList

/-- A row whose digest parts are plain texts. -/
def PlainParts (row : DerivedRow) : Prop :=
  ∀ part ∈ digestParts row, ∀ text, part = some text → Plain text

section

omit [TextDigest]

/-- Neither separator is in a part. -/
theorem not_mem_hashedPart (h : PlainParts row) {mark : Char} (hmark : isControl mark = true)
    (hmissing : mark ∉ missingPart.toList) : FreeOf mark (hashedParts row) := by
  intro text htext hmem
  obtain ⟨part, hpart, rfl⟩ := mem_map.mp htext
  cases part with
  | none => exact hmissing hmem
  | some text =>
    have hplain := h _ hpart text rfl mark hmem
    rw [hmark] at hplain
    cases hplain

/-- A missing part is told from one that is there. -/
theorem hashedPart_inj {part other : Option String}
    (hpart : ∀ text, part = some text → Plain text) (hother : ∀ text, other = some text → Plain text)
    (h : (part.getD missingPart).toList = (other.getD missingPart).toList) : part = other := by
  have hnot : ∀ text : String, Plain text → text ≠ missingPart := by
    rintro text hplain rfl
    have := hplain (Char.ofNat 0) (by simp [missingPart])
    cases this
  have h := String.toList_injective h
  cases part with
  | none =>
    cases other with
    | none => rfl
    | some text => exact absurd h.symm (hnot text (hother text rfl))
  | some text =>
    cases other with
    | none => exact absurd h (hnot text (hpart text rfl))
    | some => exact congrArg some h

theorem digestParts_inj {other : DerivedRow} (hrow : PlainParts row) (hother : PlainParts other)
    (h : hashedParts row = hashedParts other) : digestParts row = digestParts other := by
  unfold hashedParts at h
  have hlength : (digestParts row).length = (digestParts other).length := rfl
  apply ext_getElem hlength
  intro i hi hi'
  apply hashedPart_inj (hrow _ (getElem_mem hi)) (hother _ (getElem_mem hi'))
  have := congrArg (fun parts : List (List Char) => parts[i]?) h
  simp only [List.getElem?_map, List.getElem?_eq_getElem hi, List.getElem?_eq_getElem hi',
    Option.map_some, Option.some.injEq] at this
  exact this

/-- The rows as they are hashed determine their parts. -/
theorem hashedRows_inj : ∀ {rows others : List DerivedRow}, (∀ row ∈ rows, PlainParts row) →
    (∀ row ∈ others, PlainParts row) →
    (rows.map fun row => marked unitSeparator (hashedParts row)) =
      (others.map fun row => marked unitSeparator (hashedParts row)) →
    rows.map digestParts = others.map digestParts := by
  intro rows
  induction rows with
  | nil =>
    intro others _ _ h
    cases others with
    | nil => rfl
    | cons => cases h
  | cons row rest ih =>
    intro others hrows hothers h
    cases others with
    | nil => cases h
    | cons other =>
      rw [map_cons, map_cons, List.cons.injEq] at h
      obtain ⟨hfirst, hrest⟩ := h
      have hrow := hrows row mem_cons_self
      have hother := hothers other mem_cons_self
      have hparts := marked_inj (not_mem_hashedPart hrow (by decide) (by decide))
        (not_mem_hashedPart hother (by decide) (by decide)) hfirst
      rw [map_cons, map_cons, digestParts_inj hrow hother hparts,
        ih (fun r hr => hrows r (mem_cons_of_mem _ hr))
          (fun r hr => hothers r (mem_cons_of_mem _ hr)) hrest]

/-- The text that is hashed determines the parts of the rows. -/
theorem corpusText_inj {rows others : List DerivedRow} (hrows : ∀ row ∈ rows, PlainParts row)
    (hothers : ∀ row ∈ others, PlainParts row) (h : corpusText rows = corpusText others) :
    rows.map digestParts = others.map digestParts := by
  have hfree : ∀ {rows : List DerivedRow}, (∀ row ∈ rows, PlainParts row) →
      FreeOf recordSeparator (rows.map fun row => marked unitSeparator (hashedParts row)) := by
    intro rows hrows text htext hmem
    obtain ⟨row, hrow, rfl⟩ := mem_map.mp htext
    rcases mem_marked hmem with hmark | ⟨part, hpart, hmem⟩
    · exact absurd hmark (by decide)
    · exact not_mem_hashedPart (hrows row hrow) (by decide) (by decide) part hpart hmem
  unfold corpusText at h
  have h := append_cancel_left (String.ofList_injective h)
  exact hashedRows_inj hrows hothers (terminated_inj (hfree hrows) (hfree hothers) h)

end

/-! ## Digests that determine what was hashed -/

/-- What the calls of a history are about. -/
def Targets (attempts : List (CorpusCall × Nat)) : Set (LibraryProjection × Finset String) :=
  {target | ∃ attempt ∈ attempts, attempt.1.target = some target}

/-- No two things that were hashed share a digest: of the rows that calls are
about, equal digests of record, attempt and transcript come with equal fields,
and equal corpus digests with equal texts. -/
structure DigestsDetermine (targets : Set (LibraryProjection × Finset String)) : Prop where
  record : ∀ t ∈ targets, ∀ t' ∈ targets, ∀ row ∈ t.1.rows, ∀ other ∈ t'.1.rows,
    row.meetingRecordSha256 = other.meetingRecordSha256 →
      row.lifecycle = other.lifecycle ∧ row.transcriptRelativePath = other.transcriptRelativePath
  attempt : ∀ t ∈ targets, ∀ t' ∈ targets, ∀ row ∈ t.1.rows, ∀ other ∈ t'.1.rows,
    row.attemptSha256 = other.attemptSha256 →
      row.createdAtEpochSeconds = other.createdAtEpochSeconds
  transcript : ∀ t ∈ targets, ∀ t' ∈ targets, ∀ row ∈ t.1.rows, ∀ other ∈ t'.1.rows,
    row.transcriptSha256 = other.transcriptSha256 → row.turns = other.turns
  corpus : ∀ t ∈ targets, ∀ t' ∈ targets, corpusDigest t.1 t.2 = corpusDigest t'.1 t'.2 →
    corpusText (indexedRows t.1 t.2) = corpusText (indexedRows t'.1 t'.2)

omit [TextDigest] in
theorem mem_indexedRows {projection : LibraryProjection} {excluded : Finset String}
    (h : row ∈ indexedRows projection excluded) : ∃ found ∈ projection.rows, derived found = row :=
  mem_map.mp (mem_filter.mp h).1

/-- Equal corpus digests are taken of equal rows. -/
theorem DigestsDetermine.indexedRows {targets : Set (LibraryProjection × Finset String)}
    (h : DigestsDetermine targets) (hrebuilt : ∀ t ∈ targets, Rebuilt t.1)
    {t t' : LibraryProjection × Finset String} (ht : t ∈ targets) (ht' : t' ∈ targets)
    (hdigest : corpusDigest t.1 t.2 = corpusDigest t'.1 t'.2) :
    indexedRows t.1 t.2 = indexedRows t'.1 t'.2 := by
  have hplain : ∀ t ∈ targets, ∀ row ∈ CorpusIndex.indexedRows t.1 t.2, PlainParts row := by
    intro t ht row hrow
    obtain ⟨found, hfound, rfl⟩ := mem_indexedRows hrow
    exact digestParts_plain ((hrebuilt t ht).isPlain found hfound)
  have hparts := corpusText_inj (hplain t ht) (hplain t' ht') (h.corpus t ht t' ht' hdigest)
  have hlength := congrArg List.length hparts
  rw [length_map, length_map] at hlength
  apply ext_getElem hlength
  intro i hi hi'
  have hrow := congrArg (fun parts : List (List (Option String)) => parts[i]?) hparts
  simp only [List.getElem?_map, List.getElem?_eq_getElem hi, List.getElem?_eq_getElem hi',
    Option.map_some, Option.some.injEq] at hrow
  obtain ⟨row, hmem, hrow₁⟩ := mem_indexedRows (getElem_mem hi)
  obtain ⟨other, hmem', hrow₂⟩ := mem_indexedRows (getElem_mem hi')
  rw [← hrow₁, ← hrow₂] at hrow ⊢
  unfold digestParts derived at hrow
  simp only [List.cons.injEq, Option.some.injEq, and_true] at hrow
  obtain ⟨hid, hrecord, hattempt, htranscript, hjson, hmarkdown, htitle, hfolder⟩ := hrow
  obtain ⟨hlifecycle, hpath⟩ := h.record t ht t' ht' row hmem other hmem' hrecord
  unfold derived
  rw [hid, hrecord, hattempt, htranscript, hjson, hmarkdown, htitle, hfolder, hlifecycle, hpath,
    h.attempt t ht t' ht' row hmem other hmem' hattempt,
    h.transcript t ht t' ht' row hmem other hmem' htranscript]

/-! ## One call -/

section Calls

variable {projection : LibraryProjection} {excluded : Finset String} {index : Index}
  {filling : Filling} {targets : Set (LibraryProjection × Finset String)} {e : CorpusIndexError}
  {identity : EmbedderIdentity} {offered : List WindowVector}

/-- The index after a replacement. -/
def replaced (filling : Filling) (index : Index) : Index where
  tables := filling.tables
  vectors := index.vectors.filter (VectorRow.bound filling.tables.window)
  corpusDigest := none

theorem replace_of_ok (h : fill (indexedRows projection excluded) = .ok filling) (index : Index) :
    (replaceFromProjectionExcluding projection excluded).exec index =
      ⟨[replaced filling index], .ok filling.outcome⟩ := by
  unfold replaceFromProjectionExcluding
  rw [h, bind_lift_of_ok _ index rfl, bind_write]
  rfl

theorem replace_of_error (h : fill (indexedRows projection excluded) = .error e) (index : Index) :
    (replaceFromProjectionExcluding projection excluded).exec index = ⟨[], .error e⟩ := by
  unfold replaceFromProjectionExcluding
  rw [h, bind_lift_of_error _ index rfl]

theorem sync_of_unchanged (h : index.corpusDigest = some (corpusDigest projection excluded)) :
    (syncIfChangedExcluding projection excluded).exec index = ⟨[], .ok none⟩ := by
  unfold syncIfChangedExcluding
  rw [bind_look, if_pos h]
  rfl

theorem sync_of_ok (hchanged : index.corpusDigest ≠ some (corpusDigest projection excluded))
    (h : fill (indexedRows projection excluded) = .ok filling) :
    (syncIfChangedExcluding projection excluded).exec index =
      ⟨[replaced filling index,
        { replaced filling index with corpusDigest := some (corpusDigest projection excluded) }],
        .ok (some filling.outcome)⟩ := by
  unfold syncIfChangedExcluding
  rw [bind_look, if_neg hchanged,
    bind_of_eq_ok_singleton _ (replace_of_ok h index), bind_write]
  rfl

theorem sync_of_error (hchanged : index.corpusDigest ≠ some (corpusDigest projection excluded))
    (h : fill (indexedRows projection excluded) = .error e) :
    (syncIfChangedExcluding projection excluded).exec index = ⟨[], .error e⟩ := by
  unfold syncIfChangedExcluding
  rw [bind_look, if_neg hchanged, bind_of_eq_error _ (replace_of_error h index)]

omit [TextDigest] in
theorem storeVectors_of_ok {vectors : List VectorRow}
    (h : offered.foldlM (storeVector identity index.tables.window) index.vectors = .ok vectors) :
    (storeWindowVectors identity offered).exec index =
      ⟨[{ index with vectors }], .ok offered.length⟩ := by
  unfold storeWindowVectors
  refine (bind_inspect_of_ok (s := index) (a := vectors) _ h).trans ?_
  rw [bind_write]
  rfl

omit [TextDigest] in
theorem storeVectors_of_error
    (h : offered.foldlM (storeVector identity index.tables.window) index.vectors = .error e) :
    (storeWindowVectors identity offered).exec index = ⟨[], .error e⟩ := by
  unfold storeWindowVectors
  exact bind_inspect_of_error (s := index) _ h

/-- The tables are what a fresh index is filled with. -/
theorem reflects_of_fill (h : fill (indexedRows projection excluded) = .ok filling)
    (htables : index.tables = filling.tables) : Reflects index projection excluded := by
  refine ⟨filling.outcome, ?_, ?_⟩
  · rw [replace_of_ok h]
  · rw [replace_of_ok h, htables]
    rfl

omit [TextDigest] in
theorem bound_replaced (filling : Filling) (index : Index) (digest : Option String) :
    Bound { replaced filling index with corpusDigest := digest } :=
  fun _ hvector => (mem_filter.mp hvector).2

omit [TextDigest] in
/-- A vector of a meeting that the tables avoid has no window. -/
theorem Bound.avoids (hbound : Bound index) {id : String} (h : index.tables.Avoids id) :
    ∀ vector ∈ index.vectors, vector.meetingId ≠ id := by
  intro vector hvector heq
  have hfound := hbound vector hvector
  unfold VectorRow.bound at hfound
  obtain ⟨window, hwindow, hsame⟩ := any_eq_true.mp hfound
  simp only [Bool.and_eq_true, beq_iff_eq] at hsame
  exact h.window window hwindow (hsame.1.1.trans heq)

/-- The index after a replacement, with its digest or without. -/
theorem synced_replaced (h : fill (indexedRows projection excluded) = .ok filling) (index : Index)
    (digest : Option String) :
    Synced projection excluded index { replaced filling index with corpusDigest := digest } where
  reflects := reflects_of_fill h rfl
  excluded _ hid := ⟨fill_avoids h hid,
    (bound_replaced filling index digest).avoids (fill_avoids h hid)⟩
  bound := bound_replaced filling index digest
  kept _ hvector hbound := mem_filter.mpr ⟨hvector, hbound⟩

/-- What the calls so far left: each vector has its window, and a digest that is
remembered was taken of what the tables were filled with. -/
structure Remembers (targets : Set (LibraryProjection × Finset String)) (index : Index) : Prop where
  bound : Bound index
  digest : ∀ found, index.corpusDigest = some found → ∃ t ∈ targets, ∃ filling,
    found = corpusDigest t.1 t.2 ∧ fill (indexedRows t.1 t.2) = .ok filling ∧
      index.tables = filling.tables

theorem remembers_fresh : Remembers targets Index.fresh where
  bound _ hvector := absurd hvector not_mem_nil
  digest _ h := by cases h

omit [TextDigest] in
/-- Vectors are stored beside their windows. -/
theorem bound_of_storeVectors {vectors : List VectorRow} (hbound : Bound index)
    (h : offered.foldlM (storeVector identity index.tables.window) index.vectors = .ok vectors) :
    ∀ vector ∈ vectors, VectorRow.bound index.tables.window vector = true := by
  refine foldlM_eq_ok_invariant (P := fun vectors : List VectorRow => ∀ vector ∈ vectors,
    VectorRow.bound index.tables.window vector = true) ?_ hbound h
  intro offer _ before after hbefore hstep vector hvector
  unfold storeVector at hstep
  simp only [bind_eq_ok, refuseIf_eq_ok, not_not] at hstep
  obtain ⟨_, -, _, -, _, hwindow, heq⟩ := hstep
  cases heq
  rcases mem_append.mp hvector with hvector | hvector
  · exact hbefore vector (mem_filter.mp hvector).1
  · rw [mem_singleton.mp hvector]
    exact hwindow

/-- What a call can leave behind: tables that were filled, with the digest of what they were
filled with or with none, or other vectors. -/
theorem states_cases {call : CorpusCall} {next : Index} (hnext : next ∈ call.states index) :
    (∃ projection excluded filling digest, fill (indexedRows projection excluded) = .ok filling ∧
      next = { replaced filling index with corpusDigest := digest } ∧
      ∀ found, digest = some found →
        call.target = some (projection, excluded) ∧ found = corpusDigest projection excluded) ∨
    ∃ identity offered vectors,
      List.foldlM (storeVector identity index.tables.window) index.vectors offered = .ok vectors ∧
        next = { index with vectors } := by
  unfold CorpusCall.states CorpusCall.program at hnext
  cases call with
  | replace projection excluded =>
    simp only [bind_pure_apply] at hnext
    cases hfill : fill (indexedRows projection excluded) with
    | error =>
      rw [replace_of_error hfill] at hnext
      cases hnext
    | ok filling =>
      rw [replace_of_ok hfill] at hnext
      exact .inl ⟨projection, excluded, filling, none, hfill, mem_singleton.mp hnext, by simp⟩
  | sync projection excluded =>
    simp only [bind_pure_apply] at hnext
    by_cases hchanged : index.corpusDigest = some (corpusDigest projection excluded)
    · rw [sync_of_unchanged hchanged] at hnext
      cases hnext
    · cases hfill : fill (indexedRows projection excluded) with
      | error =>
        rw [sync_of_error hchanged hfill] at hnext
        cases hnext
      | ok filling =>
        rw [sync_of_ok hchanged hfill] at hnext
        rcases mem_cons.mp hnext with rfl | hnext
        · exact .inl ⟨projection, excluded, filling, none, hfill, rfl, by simp⟩
        · refine .inl ⟨projection, excluded, filling, _, hfill, mem_singleton.mp hnext, ?_⟩
          rintro found ⟨⟩
          exact ⟨rfl, rfl⟩
  | storeVectors identity offered =>
    simp only [bind_pure_apply] at hnext
    cases hvectors : offered.foldlM (storeVector identity index.tables.window) index.vectors with
    | error =>
      rw [storeVectors_of_error hvectors] at hnext
      cases hnext
    | ok vectors =>
      rw [storeVectors_of_ok hvectors] at hnext
      exact .inr ⟨identity, offered, vectors, hvectors, mem_singleton.mp hnext⟩

/-- One call, stopped anywhere. -/
theorem Remembers.states (h : Remembers targets index) {call : CorpusCall}
    (hcall : ∀ t, call.target = some t → t ∈ targets) :
    ∀ next ∈ call.states index, Remembers targets next := by
  intro next hnext
  obtain ⟨projection, excluded, filling, digest, hfill, rfl, hdigest⟩ |
    ⟨identity, offered, vectors, hvectors, rfl⟩ := states_cases hnext
  · refine ⟨bound_replaced filling index digest, fun found hfound => ?_⟩
    obtain ⟨htarget, rfl⟩ := hdigest found hfound
    exact ⟨(projection, excluded), hcall _ htarget, filling, rfl, hfill, rfl⟩
  · have hbound := bound_of_storeVectors h.bound hvectors
    exact ⟨hbound, h.digest⟩

/-- A sync or a replacement that answers, after calls about these targets. -/
theorem Remembers.synced (h : Remembers targets index) (hrebuilt : ∀ t ∈ targets, Rebuilt t.1)
    (hdigests : DigestsDetermine targets) (htarget : (projection, excluded) ∈ targets)
    {call : CorpusCall} (hcall : call.target = some (projection, excluded))
    (hanswer : (call.program.exec index).result = .ok ()) :
    Synced projection excluded index ((call.program.exec index).final index) := by
  unfold CorpusCall.program at hanswer ⊢
  cases call with
  | storeVectors => cases hcall
  | replace =>
    cases hcall
    cases hfill : fill (indexedRows projection excluded) with
    | error =>
      simp only [bind_of_eq_error _ (replace_of_error hfill index)] at hanswer
      cases hanswer
    | ok =>
      simp only [bind_of_eq_ok_singleton _ (replace_of_ok hfill index)]
      exact synced_replaced hfill index none
  | sync =>
    cases hcall
    by_cases hchanged : index.corpusDigest = some (corpusDigest projection excluded)
    · -- the digest belongs to an earlier call about the same rows
      simp only [bind_of_eq_ok_nil _ (sync_of_unchanged hchanged)]
      obtain ⟨t, ht, filling, hdigest, hfill, htables⟩ := h.digest _ hchanged
      rw [hdigests.indexedRows hrebuilt ht htarget hdigest.symm] at hfill
      have havoids : ∀ id ∈ excluded, index.tables.Avoids id :=
        fun id hid => htables ▸ fill_avoids hfill hid
      exact ⟨reflects_of_fill hfill htables,
        fun id hid => ⟨havoids id hid, h.bound.avoids (havoids id hid)⟩, h.bound,
        fun vector hvector _ => hvector⟩
    · cases hfill : fill (indexedRows projection excluded) with
      | error =>
        simp only [bind_of_eq_error _ (sync_of_error hchanged hfill)] at hanswer
        cases hanswer
      | ok =>
        simp only [bind_of_eq_ok _ (sync_of_ok hchanged hfill)]
        exact synced_replaced hfill index _

end Calls

/-! ## Any history -/

/-- After any run of calls, each stopped anywhere, every vector has its window,
and a sync or a replacement that answers leaves the tables of a fresh index, no
row or vector of an excluded meeting and every vector whose window is there. -/
theorem corpus_sync_equals_rebuild (attempts : List (CorpusCall × Nat)) (call : CorpusCall)
    (hrebuilt : ∀ t ∈ Targets (attempts ++ [(call, 0)]), Rebuilt t.1)
    (hdigests : DigestsDetermine (Targets (attempts ++ [(call, 0)]))) :
    let index := run CorpusCall.states Index.fresh attempts
    Bound index ∧ ∀ projection excluded, call.target = some (projection, excluded) →
      (call.program.exec index).result = .ok () →
        Synced projection excluded index ((call.program.exec index).final index) := by
  intro index
  have htargets : ∀ attempt ∈ attempts ++ [(call, 0)], ∀ t, attempt.1.target = some t →
      t ∈ Targets (attempts ++ [(call, 0)]) :=
    fun attempt hattempt t ht => ⟨attempt, hattempt, ht⟩
  have hremembers : Remembers (Targets (attempts ++ [(call, 0)])) index := by
    refine run_invariant_of_calls CorpusCall.states
      (P := fun other => ∀ t, other.target = some t → t ∈ Targets (attempts ++ [(call, 0)]))
      (fun index other hother h => h.states hother) attempts ?_ _ remembers_fresh
    exact fun attempt hattempt => htargets attempt (List.mem_append_left _ hattempt)
  refine ⟨hremembers.bound, fun projection excluded hcall hanswer => ?_⟩
  have htarget := htargets (call, 0) (List.mem_append_right _ List.mem_cons_self) _ hcall
  exact hremembers.synced hrebuilt hdigests htarget hcall hanswer

/-! ## A library of one meeting -/

section Sample

omit [TextDigest] in
theorem exists_rebuilt_singleton :
    ∃ projection row, Rebuilt projection ∧ projection.rows = [row] := by
  let _ := plainLabels
  obtain ⟨projection, row, hprojection, hrows⟩ := exists_rebuild_listed
  exact ⟨projection, row, ⟨ListedBytes, _, _, plainLabels, _, _, _, _, hprojection⟩, hrows⟩

/-- A digest that keeps the text. -/
abbrev plainDigest : TextDigest := ⟨id⟩

omit [TextDigest] in
/-- A sync after one that was stopped before its digest. -/
theorem corpus_sync_after_crash :
    let _ := plainDigest
    ∃ projection, projection.rows ≠ [] ∧
      let index := run CorpusCall.states Index.fresh [(.sync projection ∅, 1)]
      Bound index ∧ ∀ target excluded,
        (CorpusCall.sync projection ∅).target = some (target, excluded) →
        ((CorpusCall.sync projection ∅).program.exec index).result = .ok () →
        Synced target excluded index (((CorpusCall.sync projection ∅).program.exec index).final index) := by
  intro _
  obtain ⟨projection, row, hrebuilt, hrows⟩ := exists_rebuilt_singleton
  refine ⟨projection, by simp [hrows], corpus_sync_equals_rebuild [(.sync projection ∅, 1)] _ ?_ ?_⟩
  all_goals
    have htargets : ∀ t ∈ Targets ([(.sync projection ∅, 1)] ++ [(.sync projection ∅, 0)]),
        t = (projection, ∅) := by
      rintro t ⟨attempt, hattempt, htarget⟩
      simp only [List.cons_append, List.nil_append, List.mem_cons, List.not_mem_nil, or_false]
        at hattempt
      rcases hattempt with rfl | rfl <;> exact (Option.some.inj htarget).symm
  · intro t ht
    rw [htargets t ht]
    exact hrebuilt
  · have hsame : ∀ t ∈ Targets ([(.sync projection ∅, 1)] ++ [(.sync projection ∅, 0)]),
        ∀ other ∈ t.1.rows, other = row := by
      intro t ht other hother
      rw [htargets t ht, hrows] at hother
      exact List.mem_singleton.mp hother
    constructor
    · intro t ht t' ht' r hr r' hr' _
      rw [hsame t ht r hr, hsame t' ht' r' hr']
      exact ⟨rfl, rfl⟩
    · intro t ht t' ht' r hr r' hr' _
      rw [hsame t ht r hr, hsame t' ht' r' hr']
    · intro t ht t' ht' r hr r' hr' _
      rw [hsame t ht r hr, hsame t' ht' r' hr']
    · intro t ht t' ht' _
      rw [htargets t ht, htargets t' ht']

end Sample

end CorpusIndex

end YawnApp.SessionCore
