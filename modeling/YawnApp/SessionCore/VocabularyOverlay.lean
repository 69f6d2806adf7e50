import YawnApp.Foundation.Scans
import YawnApp.SessionCore.LocalVocabulary
import YawnApp.SessionCore.Recorded

set_option autoImplicit false

/-!
# The overlay of a note request agrees with the projection

`project` and `project_turns` both walk a text with `project_with_entries`.  The
walk cuts the text into kept characters and replaced source phrases (`Cut`), and
both answers are read off that cut: the projected text is its result, the
applications are its spans in bytes and the replacements its spans in scalars.
What the validator of the overlay asks for and what the worker renders from it
follow from the cut alone.
-/

namespace YawnApp.SessionCore

open YawnApp.Foundation List

/-! ## Bytes and characters -/

theorem utf8ByteSize_eq (text : String) : text.utf8ByteSize = byteLength text.toList := by
  have h := Value.utf8ByteSize_ofList text.toList
  rwa [String.ofList_toList] at h

theorem byteLength_cons (c : Char) (rest : List Char) :
    byteLength (c :: rest) = c.utf8Size + byteLength rest := rfl

theorem byteLength_append (a b : List Char) :
    byteLength (a ++ b) = byteLength a + byteLength b := width_append _ a b

theorem byteLength_pos {text : List Char} (h : text ≠ []) : 0 < byteLength text :=
  width_pos Char.utf8Size_pos h

/-- The length of a beginning is a character boundary. -/
theorem splitAtByte_append (before after : List Char) :
    splitAtByte (before ++ after) (byteLength before) = some (before, after) := by
  induction before with
  | nil => cases after <;> rfl
  | cons c rest ih =>
    have hpos := c.utf8Size_pos
    obtain ⟨n, hn⟩ : ∃ n, byteLength (c :: rest) = n + 1 :=
      ⟨byteLength (c :: rest) - 1, by rw [byteLength_cons]; omega⟩
    have hrest : n + 1 - c.utf8Size = byteLength rest := by
      rw [← hn, byteLength_cons]
      omega
    rw [hn, cons_append, splitAtByte, if_pos (by rw [← hn, byteLength_cons]; omega), hrest, ih]
    rfl

theorem sliceFrom_append (before after : List Char) :
    sliceFrom (before ++ after) (byteLength before) = some after := by
  rw [sliceFrom, splitAtByte_append]
  rfl

theorem sliceTo_append (before after : List Char) :
    sliceTo (before ++ after) (byteLength before) = some before := by
  rw [sliceTo, splitAtByte_append]
  rfl

theorem slice_append (before source after : List Char) :
    slice (before ++ source ++ after) (byteLength before)
      (byteLength before + byteLength source) = some source := by
  rw [slice, append_assoc, sliceFrom_append, Option.bind_some, Nat.add_sub_cancel_left,
    sliceTo_append]

/-! ## What validation promises -/

/-- An entry whose texts `validate_text` passed. -/
structure LocalVocabularyEntryWire.Valid (entry : LocalVocabularyEntryWire) : Prop where
  sourcePhrase : validateText entry.sourcePhrase = .ok ()
  preferredReplacement : validateText entry.preferredReplacement = .ok ()

/-- Entries that a document may hold: each valid, no identifier twice. -/
structure ValidEntries (entries : List LocalVocabularyEntryWire) : Prop where
  valid : ∀ entry ∈ entries, entry.Valid
  ids : (entries.map LocalVocabularyEntryWire.id).Nodup

theorem validateEntries_ok : ∀ {entries : List LocalVocabularyEntryWire} {ids : List Uuid}
    {phrases : List String}, validateEntries ids phrases entries = .ok () →
    ValidEntries entries ∧ ∀ entry ∈ entries, entry.id ∉ ids
  | [], _, _, _ => ⟨⟨nofun, nodup_nil⟩, nofun⟩
  | entry :: rest, ids, phrases, h => by
    rw [validateEntries] at h
    simp only [check_bind_eq_ok, refuseIf_eq_ok] at h
    obtain ⟨hsource, hreplacement, -, -, hid, -, hrest⟩ := h
    obtain ⟨hvalid, hids⟩ := validateEntries_ok hrest
    refine ⟨⟨?_, ?_⟩, ?_⟩
    · intro e he
      rcases mem_cons.mp he with rfl | he
      · exact ⟨hsource, hreplacement⟩
      · exact hvalid.valid e he
    · rw [map_cons, nodup_cons]
      refine ⟨?_, hvalid.ids⟩
      intro hmem
      obtain ⟨e, he, heq⟩ := mem_map.mp hmem
      exact hids e he (heq ▸ mem_cons_self)
    · intro e he
      rcases mem_cons.mp he with rfl | he
      · exact hid
      · exact fun hmem => hids e he (mem_cons_of_mem _ hmem)

variable {entries : List LocalVocabularyEntryWire}

theorem validateDocument_ok {sorted : List LocalVocabularyEntryWire}
    (h : validateDocument entries = .ok sorted) : ValidEntries sorted := by
  unfold validateDocument at h
  simp only [check_bind_eq_ok, pure, Except.pure, Except.ok.injEq] at h
  obtain ⟨-, hentries, rfl⟩ := h
  obtain ⟨hvalid, -⟩ := validateEntries_ok hentries
  have hperm := entries.mergeSort_perm fun left right => (compareCreated left right).isLE
  refine ⟨fun entry hentry => hvalid.valid entry (hperm.mem_iff.mp hentry), ?_⟩
  exact (hperm.map LocalVocabularyEntryWire.id).nodup_iff.mpr hvalid.ids

theorem ValidEntries.filter (h : ValidEntries entries) (p : LocalVocabularyEntryWire → Bool) :
    ValidEntries (entries.filter p) :=
  ⟨fun entry hentry => h.valid entry (mem_filter.mp hentry).1,
    h.ids.sublist (filter_sublist.map _)⟩

section Load

variable {B : Type} [Platform B]

/-- What a store holds is valid, whatever was written to its file. -/
theorem loadVocabulary_ok {v : Volume VocabularyPlace B} {entries : List LocalVocabularyEntryWire}
    (h : loadVocabulary v = .ok entries) : ValidEntries entries := by
  unfold loadVocabulary at h
  rw [check_bind_eq_ok] at h
  obtain ⟨-, h⟩ := h
  split at h
  · cases h
    exact ⟨nofun, nodup_nil⟩
  · simp only [bind_eq_ok] at h
    obtain ⟨-, -, -, -, document, -, hdocument⟩ := h
    exact validateDocument_ok hdocument
  · cases h

theorem enabledEntries_ok {v : Volume VocabularyPlace B} {entries : List LocalVocabularyEntryWire}
    (h : enabledEntries v = .ok entries) : ValidEntries entries := by
  unfold enabledEntries at h
  simp only [bind_eq_ok, pure, Except.pure, Except.ok.injEq] at h
  obtain ⟨loaded, hload, rfl⟩ := h
  exact (loadVocabulary_ok hload).filter _

end Load

theorem validateText_ok {text : String} (h : validateText text = .ok ()) :
    text ≠ "" ∧ text.utf8ByteSize ≤ maxEntryTextBytes ∧ text.toList.any isControl = false := by
  unfold validateText at h
  simp only [check_bind_eq_ok, refuseIf_eq_ok, not_or, Nat.not_lt, Bool.not_eq_true] at h
  exact ⟨h.1.1, h.2.1, h.2.2.2⟩

theorem ne_nil_of_validateText {text : String} (h : validateText text = .ok ()) :
    text.toList ≠ [] := fun hnil => (validateText_ok h).1 (String.toList_eq_nil_iff.mp hnil)

/-! ## The cut of a text -/

/-- The pieces of a text: the replaced ones are source phrases of entries, with
the replacements that the entries prefer. -/
structure Cut (entries : List LocalVocabularyEntryWire) (text : List Char)
    (pieces : List (Piece LocalVocabularyEntryWire Char)) : Prop where
  source : sourceOf pieces = text
  entry : ∀ entry source replacement, Piece.replaced entry source replacement ∈ pieces →
    entry ∈ entries ∧ source = entry.sourcePhrase.toList ∧
      replacement = entry.preferredReplacement.toList

/-- The application that a span in bytes stands for. -/
def applicationOf (s : Span LocalVocabularyEntryWire × List Char × List Char) :
    VocabularyApplication := ⟨s.1.reason.id, s.1.start, s.1.stop⟩

/-- The applications of pieces that begin at byte `start`. -/
def applicationsFrom (start : Nat) (pieces : List (Piece LocalVocabularyEntryWire Char)) :
    List VocabularyApplication :=
  (spansFrom Char.utf8Size start pieces).map applicationOf

theorem mem_of_maxBy {α : Type} {cmp : α → α → Ordering} {l : List α} {a : α}
    (h : maxBy cmp l = some a) : a ∈ l := by
  cases l with
  | nil => cases h
  | cons first rest =>
    rw [maxBy, Option.some.injEq] at h
    subst h
    induction rest generalizing first with
    | nil => exact mem_cons_self
    | cons second rest ih =>
      rw [foldl_cons]
      have hmem := ih (if cmp first second = .gt then first else second)
      rcases mem_cons.mp hmem with heq | hrest
      · rw [heq]
        split
        · exact mem_cons_self
        · exact mem_cons_of_mem _ mem_cons_self
      · exact mem_cons_of_mem _ (mem_cons_of_mem _ hrest)

theorem bestEntry_some {rest : List Char} {entry : LocalVocabularyEntryWire}
    (h : bestEntry rest entries = some entry) :
    entry ∈ entries ∧ entry.sourcePhrase.toList <+: rest := by
  have hmem := mem_of_maxBy h
  rw [mem_filter, isPrefixOf_iff_prefix] at hmem
  exact hmem

/-- The pieces of a scan in which the best entry of each place is applied. -/
abbrev BestScan (entries : List LocalVocabularyEntryWire)
    (pieces : List (Piece LocalVocabularyEntryWire Char)) : Prop :=
  Scanned (fun rest => bestEntry rest entries) (fun entry => entry.sourcePhrase.toList)
    (fun entry => entry.preferredReplacement.toList) pieces

/-- From the end of the pieces read so far the loop returns, and its answer is
that of a scan of the rest.  The induction is on the rounds; each reads a
character at least, so that `rest` bounds them. -/
theorem projectLoop_scanned (hentries : ValidEntries entries) (fuel : Nat)
    (done : List (Piece LocalVocabularyEntryWire Char)) (rest : List Char)
    (hfuel : rest.length < fuel) :
    ∃ answer, projectLoop (sourceOf done ++ rest) entries fuel (byteLength (sourceOf done))
        (resultOf done) (applicationsFrom 0 done) = some answer ∧
      ∀ projection, answer = .ok projection → ∃ more, sourceOf more = rest ∧
        BestScan entries more ∧ projection =
          ⟨String.ofList (resultOf (done ++ more)), applicationsFrom 0 (done ++ more)⟩ := by
  induction fuel generalizing done rest with
  | zero => omega
  | succ fuel ih =>
    rw [projectLoop]
    cases hrest : rest with
    | nil =>
      rw [if_neg (by simp)]
      refine ⟨_, rfl, fun projection h => ⟨[], rfl, .nil, ?_⟩⟩
      rw [check_bind_eq_ok] at h
      obtain ⟨-, h⟩ := h
      cases h
      rw [append_nil]
    | cons c tail =>
      have hmore : byteLength (sourceOf done) < byteLength (sourceOf done ++ c :: tail) := by
        rw [byteLength_append]
        have := byteLength_pos (cons_ne_nil c tail)
        omega
      rw [if_pos hmore, sliceFrom_append, Option.bind_some]
      cases hbest : bestEntry (c :: tail) entries with
      | none =>
        rw [List.head?_cons, Option.bind_some]
        dsimp only
        split
        · exact ⟨_, rfl, nofun⟩
        -- the character is kept
        · have h := ih (done ++ [.kept c]) tail (by rw [hrest, length_cons] at hfuel; omega)
          simp only [sourceOf_append, resultOf_append, applicationsFrom, spansFrom_append, spansFrom,
            append_nil, sourceOf_cons, sourceOf_nil, resultOf_cons, resultOf_nil, Piece.source,
            Piece.result, width_append, width_cons, width_nil, Nat.add_zero, append_assoc,
            singleton_append] at h
          obtain ⟨answer, hanswer, hscan⟩ := h
          refine ⟨answer, hanswer, fun projection hok => ?_⟩
          obtain ⟨more, hsource, hscanned, rfl⟩ := hscan projection hok
          refine ⟨.kept c :: more, ?_, .kept (by rw [hsource]; exact hbest) hscanned, ?_⟩
          · rw [sourceOf_cons, hsource]
            rfl
          · simp [applicationsFrom, spansFrom_append, spansFrom, Piece.result]
      | some entry =>
        obtain ⟨hentry, after, hafter⟩ := bestEntry_some hbest
        have hsource := ne_nil_of_validateText (hentries.valid entry hentry).sourcePhrase
        dsimp only
        split
        · exact ⟨_, rfl, nofun⟩
        -- the source phrase of the entry is replaced
        · have hlength : after.length < fuel := by
            have := congrArg List.length hafter
            rw [length_append] at this
            have := length_pos_iff.mpr hsource
            rw [hrest] at hfuel
            omega
          have h := ih (done ++ [.replaced entry entry.sourcePhrase.toList
            entry.preferredReplacement.toList]) after hlength
          simp only [sourceOf_append, resultOf_append, applicationsFrom, spansFrom_append, spansFrom,
            sourceOf_cons, sourceOf_nil, resultOf_cons, resultOf_nil, Piece.source, Piece.result,
            width_append, append_assoc, append_nil, Nat.zero_add, map_append, map_cons, map_nil, applicationOf, hafter] at h
          obtain ⟨answer, hanswer, hscan⟩ := h
          refine ⟨answer, ?_, fun projection hok => ?_⟩
          · rw [utf8ByteSize_eq]
            exact hanswer
          obtain ⟨more, hmoreSource, hscanned, rfl⟩ := hscan projection hok
          refine ⟨.replaced entry entry.sourcePhrase.toList entry.preferredReplacement.toList :: more,
            ?_, .replaced (by rw [hmoreSource, hafter]; exact hbest) hscanned, ?_⟩
          · rw [sourceOf_cons, hmoreSource]
            exact hafter
          · simp [applicationsFrom, spansFrom_append, spansFrom, applicationOf, Piece.result]

/-- `project_with_entries` returns, with a scan of the text. -/
theorem projectWithEntries_scanned (hentries : ValidEntries entries) (text : String) :
    ∃ answer, projectWithEntries text entries = some answer ∧
      ∀ projection, answer = .ok projection → text.utf8ByteSize ≤ maxProjectionBytes ∧
        ∃ pieces, sourceOf pieces = text.toList ∧ BestScan entries pieces ∧
          projection = ⟨String.ofList (resultOf pieces), applicationsFrom 0 pieces⟩ := by
  unfold projectWithEntries
  split
  · exact ⟨_, rfl, nofun⟩
  · rename_i hsize
    have hfuel : text.toList.length < text.utf8ByteSize + 1 := by
      have hlength : text.toList.length ≤ byteLength text.toList :=
        length_le_width Char.utf8Size_pos _
      rw [utf8ByteSize_eq]
      omega
    obtain ⟨answer, hanswer, hscan⟩ := projectLoop_scanned hentries _ [] text.toList hfuel
    exact ⟨answer, hanswer, fun projection hok => ⟨Nat.not_lt.mp hsize, hscan projection hok⟩⟩

theorem cut_of_bestScan {pieces : List (Piece LocalVocabularyEntryWire Char)}
    (h : BestScan entries pieces) : Cut entries (sourceOf pieces) pieces := by
  refine ⟨rfl, fun entry source replacement hmem => ?_⟩
  obtain ⟨hsource, hreplacement, _, hbest⟩ := h.of_mem hmem
  exact ⟨(bestEntry_some hbest).1, hsource, hreplacement⟩

/-- `project_with_entries` returns, with a cut of the text. -/
theorem projectWithEntries_cut (hentries : ValidEntries entries) (text : String) :
    ∃ answer, projectWithEntries text entries = some answer ∧
      ∀ projection, answer = .ok projection → text.utf8ByteSize ≤ maxProjectionBytes ∧
        ∃ pieces, Cut entries text.toList pieces ∧
          projection = ⟨String.ofList (resultOf pieces), applicationsFrom 0 pieces⟩ := by
  obtain ⟨answer, hanswer, hscan⟩ := projectWithEntries_scanned hentries text
  refine ⟨answer, hanswer, fun projection hok => ?_⟩
  obtain ⟨hsize, pieces, hsource, hscanned, hprojection⟩ := hscan projection hok
  exact ⟨hsize, pieces, hsource ▸ cut_of_bestScan hscanned, hprojection⟩

/-! ## The replacements of a cut -/

/-- The replacement that a span in scalars stands for. -/
def replacementOf (B : Type) [Platform B] [TextBytes B] (turn : Nat)
    (s : Span LocalVocabularyEntryWire × List Char × List Char) : VocabularyRangeReplacement where
  turn := UInt32.ofNat turn
  charStart := UInt32.ofNat s.1.start
  charEnd := UInt32.ofNat s.1.stop
  sourceSha256 := textSha256 B s.2.1
  replacement := s.1.reason.preferredReplacement

/-- The replacements of pieces that begin at scalar `start` of a turn. -/
def replacementsFrom (B : Type) [Platform B] [TextBytes B] (turn start : Nat)
    (pieces : List (Piece LocalVocabularyEntryWire Char)) : List VocabularyRangeReplacement :=
  (spansFrom (fun _ => 1) start pieces).map (replacementOf B turn)

section Turns

variable {B : Type} [Platform B] [TextBytes B] {pieces : List (Piece LocalVocabularyEntryWire Char)}
  {entries : List LocalVocabularyEntryWire} {text : String}
  {cuts : List (List (Piece LocalVocabularyEntryWire Char))} {turn : Nat}

theorem find?_id {entry : LocalVocabularyEntryWire}
    (hids : (entries.map LocalVocabularyEntryWire.id).Nodup) (h : entry ∈ entries) :
    (entries.find? fun e => e.id = entry.id) = some entry := by
  induction entries with
  | nil => cases h
  | cons first rest ih =>
    rw [map_cons, nodup_cons] at hids
    rcases mem_cons.mp h with rfl | hrest
    · simp
    · have hne : first.id ≠ entry.id := by
        intro heq
        exact hids.1 (heq ▸ mem_map_of_mem hrest)
      rw [List.find?_cons_of_neg (by simpa using hne)]
      exact ih hids.2 hrest

/-- The byte ranges of a cut become its scalar ranges. -/
theorem pushApplications_eq (hids : (entries.map LocalVocabularyEntryWire.id).Nodup) (turn : Nat)
    (before : List Char) (pieces : List (Piece LocalVocabularyEntryWire Char)) {text : List Char}
    (htext : text = before ++ sourceOf pieces)
    (hentry : ∀ entry source replacement, Piece.replaced entry source replacement ∈ pieces →
      entry ∈ entries) (replacements : List VocabularyRangeReplacement)
    (hroom : replacements.length ≤ maxRangeReplacements) :
    ∃ answer, pushApplications B entries turn text (applicationsFrom (byteLength before) pieces)
        replacements = some answer ∧
      ∀ out, answer = .ok out → out.length ≤ maxRangeReplacements ∧
        out = replacements ++ replacementsFrom B turn before.length pieces := by
  induction pieces generalizing before replacements with
  | nil =>
    refine ⟨_, rfl, fun out h => ?_⟩
    cases h
    exact ⟨hroom, (append_nil _).symm⟩
  | cons p rest ih =>
    cases p with
    | kept c =>
      have h := ih (before ++ [c]) (by simp [htext, Piece.source])
        (fun e s r hmem => hentry e s r (mem_cons_of_mem _ hmem)) replacements hroom
      rw [byteLength_append, length_append] at h
      exact h
    | replaced entry source replacement =>
      rw [sourceOf_cons] at htext
      have hstop : byteLength before + byteLength source = byteLength (before ++ source) :=
        (byteLength_append _ _).symm
      have hslice : slice text (byteLength before) (byteLength before + width Char.utf8Size source) =
          some source := by
        rw [htext, ← append_assoc]
        exact slice_append _ _ _
      have hbefore : sliceTo text (byteLength before) = some before := by
        rw [htext]
        exact sliceTo_append _ _
      have hafter : sliceTo text (byteLength before + width Char.utf8Size source) =
          some (before ++ source) := by
        rw [htext, ← append_assoc]
        exact (congrArg _ hstop).trans (sliceTo_append _ _)
      have hfind := find?_id hids (hentry entry source replacement mem_cons_self)
      simp only [applicationsFrom, spansFrom, map_cons, applicationOf, pushApplications]
      split
      · refine ⟨_, rfl, fun out hok => ?_⟩
        cases hok
      · rename_i hfull
        rw [hslice, hbefore, hafter]
        simp only [Option.bind_eq_bind, Option.bind_some, hfind]
        have h := ih (before ++ source) (by rw [htext, append_assoc]; rfl)
          (fun e s r hmem => hentry e s r (mem_cons_of_mem _ hmem))
          (replacements ++ [replacementOf B turn
            (⟨entry, before.length, before.length + source.length⟩, source, replacement)])
          (by rw [length_append, length_singleton]; omega)
        rw [← hstop, length_append] at h
        obtain ⟨answer, hanswer, hout⟩ := h
        refine ⟨answer, ?_, fun out hok => ?_⟩
        · rw [length_append]
          exact hanswer
        · obtain ⟨hlength, rfl⟩ := hout out hok
          refine ⟨hlength, ?_⟩
          simp [replacementsFrom, spansFrom]

/-- The replacements of the turns from index `turn` on, a cut for each. -/
def overlayFrom (B : Type) [Platform B] [TextBytes B] :
    Nat → List (List (Piece LocalVocabularyEntryWire Char)) → List VocabularyRangeReplacement
  | _, [] => []
  | turn, pieces :: rest => replacementsFrom B turn 0 pieces ++ overlayFrom B (turn + 1) rest

/-- What `project_with_entries` answers about a turn, and the cut behind it. -/
structure Projected (entries : List LocalVocabularyEntryWire) (text : String)
    (pieces : List (Piece LocalVocabularyEntryWire Char)) : Prop where
  cut : Cut entries text.toList pieces
  size : text.utf8ByteSize ≤ maxProjectionBytes
  answer : projectWithEntries text entries =
    some (.ok ⟨String.ofList (resultOf pieces), applicationsFrom 0 pieces⟩)

/-- The loop over the turns returns, with a cut for each. -/
theorem projectTurnsFrom_overlay (hentries : ValidEntries entries) (turns : List String)
    (turn : Nat) (replacements : List VocabularyRangeReplacement)
    (hroom : replacements.length ≤ maxRangeReplacements) :
    ∃ answer, projectTurnsFrom B entries turn turns replacements = some answer ∧
      ∀ out, answer = .ok out → out.length ≤ maxRangeReplacements ∧
        ∃ cuts, List.Forall₂ (Projected entries) turns cuts ∧
          out = replacements ++ overlayFrom B turn cuts := by
  induction turns generalizing turn replacements with
  | nil =>
    refine ⟨_, rfl, fun out h => ?_⟩
    cases h
    exact ⟨hroom, [], List.Forall₂.nil, (append_nil _).symm⟩
  | cons text rest ih =>
    obtain ⟨answer, hanswer, hcut⟩ := projectWithEntries_cut hentries text
    rw [projectTurnsFrom, hanswer, Option.bind_some]
    cases answer with
    | error => exact ⟨_, rfl, nofun⟩
    | ok =>
      obtain ⟨hsize, pieces, hpieces, rfl⟩ := hcut _ rfl
      obtain ⟨pushed, hpushed, hout⟩ := pushApplications_eq (B := B) hentries.ids turn [] pieces
        hpieces.source.symm (fun e s r hmem => (hpieces.entry e s r hmem).1) replacements hroom
      change pushApplications B entries turn text.toList (applicationsFrom 0 pieces) _ = _ at hpushed
      simp only [hpushed, Option.bind_some]
      cases pushed with
      | error => exact ⟨_, rfl, nofun⟩
      | ok next =>
        obtain ⟨hnext, heq⟩ := hout _ rfl
        obtain ⟨answer, hrest, hall⟩ := ih (turn + 1) next hnext
        refine ⟨answer, hrest, fun out hok => ?_⟩
        obtain ⟨hlength, cuts, hcuts, rfl⟩ := hall out hok
        refine ⟨hlength, pieces :: cuts, List.Forall₂.cons ⟨hpieces, hsize, hanswer⟩ hcuts, ?_⟩
        rw [heq, overlayFrom, append_assoc]
        rfl

/-! ## What the overlay of a list of cuts is -/

/-- A span of a turn fits a machine word, and lies where the cut says. -/
theorem replacementOf_spans (h : Projected entries text pieces)
    {s : Span LocalVocabularyEntryWire × List Char × List Char}
    (hs : s ∈ spansFrom (fun _ => 1) 0 pieces) :
    ∃ before after, text.toList = before ++ s.2.1 ++ after ∧
      s.1.start = before.length ∧ s.1.stop = before.length + s.2.1.length ∧
      s.1.stop < UInt32.size ∧ s.1.reason ∈ entries ∧ s.2.1 = s.1.reason.sourcePhrase.toList ∧
      s.2.2 = s.1.reason.preferredReplacement.toList := by
  obtain ⟨span, source, replacement⟩ := s
  obtain ⟨before, after, htext, hstart, hstop, hmem⟩ := split_of_mem_spansFrom hs
  obtain ⟨hentry, hsource, hreplacement⟩ := h.cut.entry _ _ _ hmem
  rw [h.cut.source] at htext
  rw [width_one] at hstart hstop
  refine ⟨before, after, htext, by rw [hstart, Nat.zero_add], by rw [hstop, hstart, Nat.zero_add],
    ?_, hentry, hsource, hreplacement⟩
  have hsize := h.size
  rw [utf8ByteSize_eq] at hsize
  have hlength : text.toList.length ≤ byteLength text.toList :=
    length_le_width Char.utf8Size_pos _
  rw [htext, length_append, length_append] at hlength
  rw [htext] at hsize
  change span.stop < 4294967296
  unfold maxProjectionBytes at hsize
  omega

/-- In order, and never overlapping inside a turn. -/
def Precedes (a b : VocabularyRangeReplacement) : Prop :=
  a.turn < b.turn ∨ a.turn = b.turn ∧ a.charEnd ≤ b.charStart

/-- What the validator asks of a replacement by itself. -/
structure WellShaped (r : VocabularyRangeReplacement) : Prop where
  range : r.charStart < r.charEnd
  replacement : r.replacement ≠ "" ∧ r.replacement.utf8ByteSize ≤ 512 ∧
    r.replacement.toList.any isControl = false
  digest : validSha256 r.sourceSha256 = true

theorem vocabularyRangeReplacementsFrom_of {replacements : List VocabularyRangeReplacement}
    (hshape : ∀ r ∈ replacements, WellShaped r) (horder : replacements.Pairwise Precedes)
    (previous : Option VocabularyRangeReplacement)
    (hprevious : ∀ prior ∈ previous, WellShaped prior ∧ ∀ r ∈ replacements, Precedes prior r) :
    vocabularyRangeReplacementsFrom previous replacements = true := by
  induction replacements generalizing previous with
  | nil => rfl
  | cons r rest ih =>
    have hr := hshape r mem_cons_self
    rw [pairwise_cons] at horder
    have hrest := ih (fun q hq => hshape q (mem_cons_of_mem _ hq)) horder.2 (some r)
      (by rintro _ ⟨⟩; exact ⟨hr, horder.1⟩)
    have hprior : ∀ prior ∈ previous, prior.charStart < prior.charEnd ∧ Precedes prior r :=
      fun prior h => ⟨(hprevious prior h).1.range, (hprevious prior h).2 r mem_cons_self⟩
    unfold vocabularyRangeReplacementsFrom
    simp only [Bool.and_eq_true, decide_eq_true_eq, bne_iff_ne, Bool.not_eq_true', hr.range,
      hr.replacement.1, hr.replacement.2.1, hr.replacement.2.2, hr.digest, hrest, ne_eq,
      not_false_eq_true, true_and, and_true]
    cases previous with
    | none => rfl
    | some prior =>
      obtain ⟨hrange, hbefore⟩ := hprior prior rfl
      simp only [Option.all_some, Bool.and_eq_true, decide_eq_true_eq, Bool.not_eq_true',
        Bool.and_eq_false_iff, beq_eq_false_iff_ne, decide_eq_false_iff_not]
      rcases hbefore with hturn | ⟨hturn, hend⟩
      · exact ⟨.inl hturn, .inl (by intro heq; rw [heq] at hturn; exact UInt32.lt_irrefl _ hturn)⟩
      · exact ⟨.inr ⟨hturn, .inl (UInt32.lt_of_lt_of_le hrange hend)⟩,
          .inr (UInt32.not_lt.mpr hend)⟩

theorem wellShaped_replacementOf (hentries : ValidEntries entries)
    (h : Projected entries text pieces) {s : Span LocalVocabularyEntryWire × List Char × List Char}
    (hs : s ∈ spansFrom (fun _ => 1) 0 pieces) (turn : Nat) :
    WellShaped (replacementOf B turn s) := by
  obtain ⟨before, after, -, hstart, hstop, hfits, hentry, hsource, -⟩ := replacementOf_spans h hs
  have hvalid := hentries.valid _ hentry
  have hpos := length_pos_iff.mpr (ne_nil_of_validateText hvalid.sourcePhrase)
  rw [← hsource] at hpos
  refine ⟨?_, validateText_ok hvalid.preferredReplacement, Platform.validSha256_sha256 _⟩
  change UInt32.ofNat s.1.start < UInt32.ofNat s.1.stop
  rw [UInt32.lt_iff_toNat_lt, UInt32.toNat_ofNat_of_lt' (by omega), UInt32.toNat_ofNat_of_lt' hfits]
  omega

theorem pairwise_replacementsFrom (h : Projected entries text pieces) (turn : Nat) :
    (replacementsFrom B turn 0 pieces).Pairwise Precedes := by
  unfold replacementsFrom
  rw [pairwise_map]
  refine (pairwise_spansFrom (fun _ => 1) pieces 0).imp_of_mem ?_
  intro a b ha hb hle
  obtain ⟨-, -, -, -, -, hfits, -⟩ := replacementOf_spans h ha
  obtain ⟨before, _, -, hstart, hstop, hfits', -⟩ := replacementOf_spans h hb
  refine .inr ⟨rfl, ?_⟩
  change UInt32.ofNat a.1.stop ≤ UInt32.ofNat b.1.start
  rw [UInt32.le_iff_toNat_le, UInt32.toNat_ofNat_of_lt' hfits, UInt32.toNat_ofNat_of_lt' (by omega)]
  exact hle

theorem mem_overlayFrom {r : VocabularyRangeReplacement} (h : r ∈ overlayFrom B turn cuts) :
    ∃ i pieces, cuts[i]? = some pieces ∧ r ∈ replacementsFrom B (turn + i) 0 pieces := by
  induction cuts generalizing turn with
  | nil => cases h
  | cons pieces rest ih =>
    rcases mem_append.mp h with hhere | hrest
    · exact ⟨0, pieces, rfl, hhere⟩
    · obtain ⟨i, found, hi, hr⟩ := ih hrest
      refine ⟨i + 1, found, hi, ?_⟩
      rwa [← Nat.add_assoc, Nat.add_right_comm]

theorem turn_of_mem_replacementsFrom {r : VocabularyRangeReplacement}
    (h : r ∈ replacementsFrom B turn 0 pieces) : r.turn = UInt32.ofNat turn := by
  obtain ⟨s, -, rfl⟩ := mem_map.mp h
  rfl

theorem pairwise_overlayFrom {turns : List String} (h : List.Forall₂ (Projected entries) turns cuts)
    (turn : Nat) (hfits : turn + turns.length < UInt32.size) :
    (overlayFrom B turn cuts).Pairwise Precedes := by
  induction h generalizing turn with
  | nil => exact List.Pairwise.nil
  | @cons text pieces turns cuts hhead hrest ih =>
    rw [length_cons] at hfits
    unfold overlayFrom
    rw [pairwise_append]
    refine ⟨pairwise_replacementsFrom hhead turn, ih (turn + 1) (by omega), ?_⟩
    intro a ha b hb
    obtain ⟨i, found, hi, hb⟩ := mem_overlayFrom hb
    have hlength : i < turns.length := by
      rw [hrest.length_eq]
      exact (List.getElem?_eq_some_iff.mp hi).1
    refine .inl ?_
    rw [turn_of_mem_replacementsFrom ha, turn_of_mem_replacementsFrom hb, UInt32.lt_iff_toNat_lt,
      UInt32.toNat_ofNat_of_lt' (by omega), UInt32.toNat_ofNat_of_lt' (by omega)]
    omega

/-- The replacements of one turn are those of its cut. -/
theorem filter_overlayFrom {turns : List String} (h : List.Forall₂ (Projected entries) turns cuts)
    (turn : Nat) (hfits : turn + turns.length < UInt32.size) {i : Nat} (hi : cuts[i]? = some pieces) :
    ((overlayFrom B turn cuts).filter fun r => r.turn.toNat = turn + i) =
      replacementsFrom B (turn + i) 0 pieces := by
  induction h generalizing turn i with
  | nil => cases hi
  | @cons text first turns cuts hhead hrest ih =>
    rw [length_cons] at hfits
    have hturn : ∀ {r : VocabularyRangeReplacement} {j : Nat} {found},
        r ∈ replacementsFrom B (turn + j) 0 found → j ≤ turns.length → r.turn.toNat = turn + j := by
      intro r j found hr hj
      rw [turn_of_mem_replacementsFrom hr, UInt32.toNat_ofNat_of_lt' (by omega)]
    rw [overlayFrom, filter_append]
    cases i with
    | zero =>
      rw [List.getElem?_cons_zero, Option.some.injEq] at hi
      subst hi
      rw [filter_eq_self.mpr, filter_eq_nil_iff.mpr, append_nil]
      · rfl
      · intro r hr
        obtain ⟨j, found, hj, hr⟩ := mem_overlayFrom hr
        have hlength : j < turns.length := by
          rw [hrest.length_eq]
          exact (List.getElem?_eq_some_iff.mp hj).1
        rw [Nat.add_assoc, Nat.add_comm 1 j] at hr
        have := hturn hr (by omega)
        simp only [decide_eq_true_eq]
        omega
      · intro r hr
        have := hturn (j := 0) hr (Nat.zero_le _)
        simpa using this
    | succ i =>
      rw [List.getElem?_cons_succ] at hi
      have h := ih (turn + 1) (by omega) hi
      rw [Nat.add_assoc, Nat.add_comm 1 i] at h
      rw [h, filter_eq_nil_iff.mpr, nil_append]
      intro r hr
      have := hturn (j := 0) hr (Nat.zero_le _)
      simp only [decide_eq_true_eq]
      omega

/-- Rendering a whole turn with the replacements of its cut gives the projected
text. -/
theorem promptText_of_cut (h : Projected entries text pieces)
    {replacements : List VocabularyRangeReplacement}
    (hturn : (replacements.filter fun r => r.turn.toNat = turn) = replacementsFrom B turn 0 pieces) :
    promptText replacements turn text.toList 0 text.toList.length = resultOf pieces := by
  have hall : ∀ s ∈ spansFrom (fun _ => 1) 0 pieces,
      (replacementOf B turn s).charStart.toNat = s.1.start ∧
      (replacementOf B turn s).charEnd.toNat = s.1.stop ∧ s.1.stop ≤ text.toList.length ∧
      s.1.reason.preferredReplacement.toList = s.2.2 := by
    intro s hs
    obtain ⟨before, after, htext, hstart, hstop, hfits, -, -, hby⟩ := replacementOf_spans h hs
    refine ⟨UInt32.toNat_ofNat_of_lt' (by omega), UInt32.toNat_ofNat_of_lt' hfits, ?_, hby.symm⟩
    rw [htext, length_append, length_append]
    omega
  unfold promptText
  rw [hturn, filter_eq_self.mpr, take_length]
  · have hedits : (replacementsFrom B turn 0 pieces).map (fun r =>
        (r.charStart.toNat, r.charEnd.toNat, r.replacement.toList)) = edits 0 pieces := by
      unfold replacementsFrom edits
      rw [map_map]
      apply map_congr_left
      intro s hs
      obtain ⟨hstart, hstop, -, hby⟩ := hall s hs
      simp only [Function.comp_apply, hstart, hstop]
      exact congrArg (fun r => (s.1.start, s.1.stop, r)) hby
    rw [hedits, ← h.cut.source]
    exact substitute_spans pieces
  · intro r hr
    obtain ⟨s, hs, rfl⟩ := mem_map.mp hr
    obtain ⟨-, hstop, hle, -⟩ := hall s hs
    rw [hstop, decide_eq_true_eq]
    omega

/-! ## The agreement -/

/-- `project_turns` always returns, and what it returns passes the validator,
renders each turn as `project` does and names the digest of each span. -/
theorem projectTurns_agrees (v : Volume VocabularyPlace B) (turns : List String) :
    ∃ answer, projectTurns v turns = some answer ∧ ∀ replacements, answer = .ok replacements →
      vocabularyRangeReplacementsAreValid replacements = true ∧
      (∀ (turn : Nat) (text : String), turns[turn]? = some text →
        ∃ projection, project v text = some (.ok projection) ∧
          promptText replacements turn text.toList 0 text.toList.length =
            projection.text.toList) ∧
      ∀ r ∈ replacements, ∃ text before source after, turns[r.turn.toNat]? = some text ∧
        text.toList = before ++ source ++ after ∧ r.charStart.toNat = before.length ∧
        r.charEnd.toNat = before.length + source.length ∧
        r.sourceSha256 = textSha256 B source := by
  unfold projectTurns
  split
  · exact ⟨_, rfl, nofun⟩
  rename_i hcount
  have hfits : 0 + turns.length < UInt32.size := by
    change ¬ turns.length > 4294967295 at hcount
    change _ < 4294967296
    omega
  cases hentries : enabledEntries v with
  | error e => exact ⟨_, rfl, nofun⟩
  | ok entries =>
    have hvalid := enabledEntries_ok hentries
    obtain ⟨answer, hanswer, hall⟩ :=
      projectTurnsFrom_overlay (B := B) hvalid turns 0 [] (Nat.zero_le _)
    refine ⟨answer, hanswer, fun replacements hok => ?_⟩
    obtain ⟨hlength, cuts, hcuts, heq⟩ := hall replacements hok
    rw [List.nil_append] at heq
    have hmem : ∀ {i : Nat} {pieces}, cuts[i]? = some pieces →
        ∃ text, turns[i]? = some text ∧ Projected entries text pieces := by
      intro i pieces hi
      obtain ⟨hlt, hget⟩ := List.getElem?_eq_some_iff.mp hi
      have hlt' : i < turns.length := by rw [hcuts.length_eq]; exact hlt
      refine ⟨turns[i], List.getElem?_eq_getElem hlt', ?_⟩
      rw [← hget]
      exact hcuts.get hlt' hlt
    refine ⟨?_, ?_, ?_⟩
    · unfold vocabularyRangeReplacementsAreValid
      rw [Bool.and_eq_true, decide_eq_true_eq]
      refine ⟨hlength, vocabularyRangeReplacementsFrom_of ?_ ?_ none nofun⟩
      · intro r hr
        rw [heq] at hr
        obtain ⟨i, pieces, hi, hr⟩ := mem_overlayFrom hr
        obtain ⟨s, hs, rfl⟩ := List.mem_map.mp hr
        obtain ⟨text, -, hprojected⟩ := hmem hi
        exact wellShaped_replacementOf hvalid hprojected hs _
      · rw [heq]
        exact pairwise_overlayFrom hcuts 0 hfits
    · intro turn text htext
      obtain ⟨hlt, hget⟩ := List.getElem?_eq_some_iff.mp htext
      have hlt' : turn < cuts.length := by rw [← hcuts.length_eq]; exact hlt
      have hprojected : Projected entries text cuts[turn] := by
        rw [← hget]
        exact hcuts.get hlt hlt'
      refine ⟨⟨String.ofList (resultOf cuts[turn]), applicationsFrom 0 cuts[turn]⟩, ?_, ?_⟩
      · unfold project
        rw [if_neg (Nat.not_lt.mpr hprojected.size), hentries]
        exact hprojected.answer
      · rw [String.toList_ofList]
        apply promptText_of_cut hprojected (B := B)
        rw [heq]
        have h := filter_overlayFrom (B := B) hcuts 0 hfits (List.getElem?_eq_getElem hlt')
        rwa [Nat.zero_add] at h
    · intro r hr
      rw [heq] at hr
      obtain ⟨i, pieces, hi, hr⟩ := mem_overlayFrom hr
      obtain ⟨text, htext, hprojected⟩ := hmem hi
      obtain ⟨s, hs, rfl⟩ := List.mem_map.mp hr
      obtain ⟨before, after, hsplit, hstart, hstop, hfit, -⟩ := replacementOf_spans hprojected hs
      have hi' : i < UInt32.size := by
        have := (List.getElem?_eq_some_iff.mp htext).1
        omega
      refine ⟨text, before, s.2.1, after, ?_, hsplit, ?_, ?_, rfl⟩
      · change turns[(UInt32.ofNat (0 + i)).toNat]? = _
        rw [UInt32.toNat_ofNat_of_lt' (by omega), Nat.zero_add]
        exact htext
      · exact (UInt32.toNat_ofNat_of_lt' (by omega)).trans hstart
      · exact (UInt32.toNat_ofNat_of_lt' hfit).trans hstop

end Turns

/-! A turn with characters of several bytes, and a phrase that is longer after
the replacement. -/

instance {known : List (Document × String)} : TextBytes (Recorded known) where
  asBytes text := Document.raw text text.utf8ByteSize
  size_asBytes _ := rfl

def sampleVocabulary : Volume VocabularyPlace (Recorded []) :=
  ((∅ : Volume VocabularyPlace (Recorded [])).place .root (.directory 0o700)).place .file
    (.file 0o600 (toVecPretty (VocabularyDocument.mk .v1
      [⟨sampleMeetingId, "Ångström", "Angstrom Labs", true, 1, 1⟩])))

example : (projectTurns sampleVocabulary ["Müller: Ångström."]).map Except.toOption =
    some (some [⟨0, 8, 16, emptySha256, "Angstrom Labs"⟩]) := by decide +kernel

end YawnApp.SessionCore
