import YawnApp.SessionCore.VocabularyOverlay

set_option autoImplicit false

/-!
# The projection applies the longest phrase from the left

`project_with_entries` reads a text once, from the left.  Where phrases match it applies the
longest one and goes on behind it, and nowhere else does a phrase match.  Since no two
entries have one source phrase, no two phrases of one length match at one place, and the
order of the entries does not matter.
-/

namespace YawnApp.SessionCore

open YawnApp.Foundation List

/-! ## The best entry -/

/-- The greatest of a list by a comparison has the greatest rank, if the comparison agrees
with the rank. -/
theorem rank_le_of_maxBy {α : Type} {cmp : α → α → Ordering} {rank : α → Nat}
    (hgt : ∀ a b, cmp a b = .gt → rank b ≤ rank a) (hle : ∀ a b, cmp a b ≠ .gt → rank a ≤ rank b)
    {l : List α} {best : α} (h : maxBy cmp l = some best) : ∀ a ∈ l, rank a ≤ rank best := by
  cases l with
  | nil => cases h
  | cons first rest =>
    rw [maxBy, Option.some.injEq] at h
    subst h
    induction rest generalizing first with
    | nil =>
      intro a ha
      rw [mem_singleton.mp ha]
      exact Nat.le_refl _
    | cons second rest ih =>
      intro a ha
      rw [foldl_cons]
      have hbest := ih (if cmp first second = .gt then first else second)
      have hkept : rank first ≤ rank (if cmp first second = .gt then first else second) ∧
          rank second ≤ rank (if cmp first second = .gt then first else second) := by
        split
        · rename_i hcmp
          exact ⟨Nat.le_refl _, hgt first second hcmp⟩
        · rename_i hcmp
          exact ⟨hle first second hcmp, Nat.le_refl _⟩
      rcases mem_cons.mp ha with rfl | ha
      · exact hkept.1.trans (hbest _ mem_cons_self)
      rcases mem_cons.mp ha with rfl | ha
      · exact hkept.2.trans (hbest _ mem_cons_self)
      · exact hbest a (mem_cons_of_mem _ ha)

/-- The number of characters of the source phrase. -/
def phraseLength (entry : LocalVocabularyEntryWire) : Nat := entry.sourcePhrase.toList.length

theorem comparePreference_gt {left right : LocalVocabularyEntryWire}
    (h : comparePreference left right = .gt) : phraseLength right ≤ phraseLength left := by
  unfold comparePreference at h
  rw [Ordering.then_eq_gt] at h
  unfold phraseLength
  rcases h with hlength | ⟨hlength, -⟩
  · exact (Nat.compare_eq_gt.mp hlength).le
  · exact (Nat.compare_eq_eq.mp hlength).ge

theorem comparePreference_ne_gt {left right : LocalVocabularyEntryWire}
    (h : comparePreference left right ≠ .gt) : phraseLength left ≤ phraseLength right := by
  by_contra hlt
  apply h
  unfold comparePreference
  rw [Ordering.then_eq_gt]
  exact .inl (Nat.compare_eq_gt.mpr (not_le.mp hlt))

section Best

variable {rest : List Char} {entries : List LocalVocabularyEntryWire}

/-- No entry that matches is longer than the best one. -/
theorem bestEntry_longest {entry : LocalVocabularyEntryWire}
    (h : bestEntry rest entries = some entry) :
    ∀ other ∈ entries, other.sourcePhrase.toList <+: rest →
      phraseLength other ≤ phraseLength entry := by
  intro other hother hprefix
  have hgreatest := @rank_le_of_maxBy _ comparePreference phraseLength
    (fun _ _ => comparePreference_gt) (fun _ _ => comparePreference_ne_gt) _ _ h
  apply hgreatest
  rw [mem_filter, isPrefixOf_iff_prefix]
  exact ⟨hother, hprefix⟩

theorem bestEntry_eq_none :
    bestEntry rest entries = none ↔ ∀ entry ∈ entries, ¬ entry.sourcePhrase.toList <+: rest := by
  have hmax : ∀ l : List LocalVocabularyEntryWire, maxBy comparePreference l = none ↔ l = [] := by
    intro l
    cases l <;> simp [maxBy]
  unfold bestEntry
  rw [hmax, filter_eq_nil_iff]
  simp only [ isPrefixOf_iff_prefix]

end Best

/-! ## Entries of a vocabulary -/

/-- Valid entries no two of which have one source phrase. -/
structure DistinctEntries (entries : List LocalVocabularyEntryWire) : Prop
    extends ValidEntries entries where
  phrases : (entries.map LocalVocabularyEntryWire.sourcePhrase).Nodup

/-- The best of distinct entries does not depend on their order. -/
theorem DistinctEntries.bestEntry_perm {entries reordered : List LocalVocabularyEntryWire}
    (h : DistinctEntries entries) (hperm : reordered.Perm entries) (rest : List Char) :
    bestEntry rest reordered = bestEntry rest entries := by
  cases hbest : bestEntry rest entries with
  | none =>
    rw [bestEntry_eq_none] at hbest ⊢
    exact fun entry hentry => hbest entry (hperm.mem_iff.mp hentry)
  | some entry =>
    cases hother : bestEntry rest reordered with
    | none =>
      rw [bestEntry_eq_none] at hother
      obtain ⟨hentry, hprefix⟩ := bestEntry_some hbest
      exact absurd hprefix (hother entry (hperm.mem_iff.mpr hentry))
    | some other =>
      obtain ⟨hentry, hprefix⟩ := bestEntry_some hbest
      obtain ⟨hmem, hotherPrefix⟩ := bestEntry_some hother
      have hle := bestEntry_longest hbest other (hperm.mem_iff.mp hmem) hotherPrefix
      have hge := bestEntry_longest hother entry (hperm.mem_iff.mpr hentry) hprefix
      have hphrase : other.sourcePhrase = entry.sourcePhrase := by
        apply String.toList_injective
        exact (prefix_of_prefix_length_le hotherPrefix hprefix hle).eq_of_length
          (Nat.le_antisymm hle hge)
      exact congrArg some
        (inj_on_of_nodup_map h.phrases (hperm.mem_iff.mp hmem) hentry hphrase)

/-- The loop asks for best entries only. -/
theorem projectLoop_congr {input : List Char} {entries reordered : List LocalVocabularyEntryWire}
    (h : ∀ rest, bestEntry rest reordered = bestEntry rest entries) (fuel : Nat) :
    ∀ (cursor : Nat) (output : List Char) (applied : List VocabularyApplication),
      projectLoop input reordered fuel cursor output applied =
        projectLoop input entries fuel cursor output applied := by
  induction fuel with
  | zero => intro cursor output applied; rfl
  | succ fuel ih =>
    intro cursor output applied
    unfold projectLoop
    simp only [h, ih]

/-! ## Splicing -/

/-- The text from byte `cursor` on, each byte range replaced; no range that is no slice. -/
def splice (text : List Char) : Nat → List (Nat × Nat × List Char) → Option (List Char)
  | cursor, [] => sliceFrom text cursor
  | cursor, (start, stop, replacement) :: rest => do
    let kept ← slice text cursor start
    let _ ← slice text start stop
    let later ← splice text stop rest
    return kept ++ replacement ++ later

/-- The byte ranges of pieces with their replacements. -/
def byteEdits (start : Nat) (pieces : List (Piece LocalVocabularyEntryWire Char)) :
    List (Nat × Nat × List Char) :=
  (spansFrom Char.utf8Size start pieces).map fun s => (s.1.start, s.1.stop, s.2.2)

theorem splice_from (before kept : List Char)
    (pieces : List (Piece LocalVocabularyEntryWire Char)) :
    splice (before ++ kept ++ sourceOf pieces) (byteLength before)
      (byteEdits (byteLength before + byteLength kept) pieces) =
        some (kept ++ resultOf pieces) := by
  induction pieces generalizing before kept with
  | nil =>
    rw [sourceOf_nil, append_nil, resultOf_nil, append_nil]
    exact sliceFrom_append before kept
  | cons p rest ih =>
    cases p with
    | kept a =>
      -- the letter waits with the others until the next range, or the end
      have h := ih before (kept ++ [a])
      rw [byteLength_append, ← Nat.add_assoc] at h
      simpa [byteEdits, spansFrom, Piece.source, Piece.result] using h
    | replaced reason source replacement =>
      have h := ih (before ++ kept ++ source) []
      have hnil : byteLength [] = 0 := rfl
      rw [byteLength_append, byteLength_append, hnil, Nat.add_zero, append_nil,
        nil_append] at h
      have hkept : slice (before ++ kept ++ (source ++ sourceOf rest)) (byteLength before)
          (byteLength before + byteLength kept) = some kept := slice_append before kept _
      have hsource : slice (before ++ kept ++ (source ++ sourceOf rest))
          (byteLength before + byteLength kept)
            (byteLength before + byteLength kept + byteLength source) = some source := by
        have hslice := slice_append (before ++ kept) source (sourceOf rest)
        rw [byteLength_append, append_assoc (before ++ kept)] at hslice
        exact hslice
      have hcons : byteEdits (byteLength before + byteLength kept)
          (.replaced reason source replacement :: rest) =
          (byteLength before + byteLength kept,
            byteLength before + byteLength kept + byteLength source, replacement) ::
              byteEdits (byteLength before + byteLength kept + byteLength source) rest := rfl
      rw [hcons, sourceOf_cons, resultOf_cons, splice]
      change (slice (before ++ kept ++ (source ++ sourceOf rest)) (byteLength before)
        (byteLength before + byteLength kept) >>= fun _ => _) = _
      rw [hkept, Option.bind_eq_bind, Option.bind_some]
      change (slice (before ++ kept ++ (source ++ sourceOf rest))
        (byteLength before + byteLength kept)
          (byteLength before + byteLength kept + byteLength source) >>= fun _ => _) = _
      rw [hsource, Option.bind_eq_bind, Option.bind_some]
      change (splice (before ++ kept ++ (source ++ sourceOf rest)) _ _ >>= fun later =>
        some (kept ++ replacement ++ later)) = _
      rw [← append_assoc, h, Option.bind_eq_bind, Option.bind_some, append_assoc]
      rfl

/-! ## The projection -/

/-- The range of an application with the replacement of its entry. -/
def editOf (entries : List LocalVocabularyEntryWire) (application : VocabularyApplication) :
    Nat × Nat × List Char :=
  (application.start, application.stop,
    ((entries.find? fun entry => entry.id = application.entryId).elim []
      fun entry => entry.preferredReplacement.toList))

/-- The applications of a projection are those of the longest phrases from the left, and its
text is the input with their ranges replaced. -/
structure LeftmostLongest (entries : List LocalVocabularyEntryWire) (text : List Char)
    (projection : VocabularyProjection) : Prop where
  ordered : projection.applied.Pairwise fun a b => a.stop ≤ b.start
  longest : ∀ application ∈ projection.applied, ∃ entry ∈ entries, ∃ before after,
    application.entryId = entry.id ∧ text = before ++ entry.sourcePhrase.toList ++ after ∧
    application.start = byteLength before ∧ application.start < application.stop ∧
    application.stop = application.start + entry.sourcePhrase.utf8ByteSize ∧
    ∀ other ∈ entries, other.sourcePhrase.toList <+: entry.sourcePhrase.toList ++ after →
      other.sourcePhrase.toList.length ≤ entry.sourcePhrase.toList.length
  unmatched : ∀ before after, text = before ++ after → after ≠ [] →
    (∀ application ∈ projection.applied,
      ¬ (application.start ≤ byteLength before ∧ byteLength before < application.stop)) →
    ∀ entry ∈ entries, ¬ entry.sourcePhrase.toList <+: after
  spliced : splice text 0 (projection.applied.map (editOf entries)) =
    some projection.text.toList

section Projection

variable {entries : List LocalVocabularyEntryWire}

theorem editOf_spans (h : ValidEntries entries)
    {pieces : List (Piece LocalVocabularyEntryWire Char)} (hscan : BestScan entries pieces)
    (start : Nat) :
    (applicationsFrom start pieces).map (editOf entries) = byteEdits start pieces := by
  unfold applicationsFrom byteEdits
  rw [map_map]
  apply map_congr_left
  intro s hs
  obtain ⟨-, hreplacement, _, _, -, -, -, hbest⟩ := hscan.chosen hs
  have hentry := (bestEntry_some hbest).1
  have hfind := find?_id h.ids hentry
  unfold editOf applicationOf
  dsimp only [Function.comp_apply]
  rw [hfind, Option.elim_some, hreplacement]

theorem leftmostLongest_of_scan (h : ValidEntries entries)
    {pieces : List (Piece LocalVocabularyEntryWire Char)} (hscan : BestScan entries pieces) :
    LeftmostLongest entries (sourceOf pieces)
      ⟨String.ofList (resultOf pieces), applicationsFrom 0 pieces⟩ := by
  refine ⟨?_, ?_, ?_, ?_⟩
  · unfold applicationsFrom
    rw [pairwise_map]
    exact pairwise_spansFrom _ pieces 0
  · intro application happlication
    obtain ⟨s, hs, rfl⟩ := mem_map.mp happlication
    obtain ⟨-, -, before, after, htext, hstart, hstop, hbest⟩ := hscan.chosen hs
    have hentry := (bestEntry_some hbest).1
    have hpos := byteLength_pos (ne_nil_of_validateText (h.valid _ hentry).sourcePhrase)
    rw [Nat.zero_add] at hstart
    refine ⟨s.1.reason, hentry, before, after, rfl, htext, hstart, ?_, ?_,
      bestEntry_longest hbest⟩
    · change s.1.start < s.1.stop
      rw [hstop]
      exact Nat.lt_add_of_pos_right hpos
    · rw [utf8ByteSize_eq]
      exact hstop
  · intro before after htext hafter houtside
    have hspans : ∀ s ∈ spansFrom Char.utf8Size 0 pieces,
        ¬ (s.1.start ≤ 0 + byteLength before ∧ 0 + byteLength before < s.1.stop) := by
      intro s hs
      rw [Nat.zero_add]
      exact houtside (applicationOf s) (mem_map_of_mem hs)
    have hnone := hscan.unmatched Char.utf8Size_pos htext hafter hspans
    exact bestEntry_eq_none.mp hnone
  · have hspliced := splice_from [] [] pieces
    rw [editOf_spans h hscan, String.toList_ofList]
    exact hspliced

/-- The projection of a text returns, whatever the order of the entries, and applies the
longest phrases from the left. -/
theorem projectWithEntries_leftmostLongest (h : DistinctEntries entries) (text : String) :
    ∃ answer, projectWithEntries text entries = some answer ∧
      (∀ reordered : List LocalVocabularyEntryWire, reordered.Perm entries →
        projectWithEntries text reordered = some answer) ∧
      ∀ projection, answer = .ok projection → LeftmostLongest entries text.toList projection := by
  obtain ⟨answer, hanswer, hscan⟩ := projectWithEntries_scanned h.toValidEntries text
  refine ⟨answer, hanswer, fun reordered hperm => ?_, fun projection hok => ?_⟩
  · rw [← hanswer]
    unfold projectWithEntries
    rw [projectLoop_congr (h.bestEntry_perm hperm)]
  · obtain ⟨-, pieces, hsource, hscanned, rfl⟩ := hscan projection hok
    rw [← hsource]
    exact leftmostLongest_of_scan h.toValidEntries hscanned

end Projection

/-! Two phrases that begin alike. -/

def sampleEntries : List LocalVocabularyEntryWire :=
  [⟨sampleMeetingId, "Ang", "Anna", true, 1, 1⟩,
    ⟨sampleOperationId, "Angström", "Angstrom Labs", true, 2, 2⟩]

theorem leftmostLongest_sample :
    ∃ answer, projectWithEntries "Zoë Angström, Ang" sampleEntries = some answer ∧
      (∀ reordered : List LocalVocabularyEntryWire, reordered.Perm sampleEntries →
        projectWithEntries "Zoë Angström, Ang" reordered = some answer) ∧
      ∀ projection, answer = .ok projection →
        LeftmostLongest sampleEntries "Zoë Angström, Ang".toList projection :=
  projectWithEntries_leftmostLongest
    ⟨⟨by
      intro entry hentry
      rcases List.mem_cons.mp hentry with rfl | hentry
      · exact ⟨by decide +kernel, by decide +kernel⟩
      · rw [List.mem_singleton.mp hentry]
        exact ⟨by decide +kernel, by decide +kernel⟩, by decide +kernel⟩, by decide +kernel⟩ _

example : (projectWithEntries "Zoë Angström, Ang" sampleEntries).map Except.toOption =
    some (some ⟨"Zoë Angstrom Labs, Anna", [⟨sampleOperationId, 5, 14⟩,
      ⟨sampleMeetingId, 16, 19⟩]⟩) := by decide +kernel

end YawnApp.SessionCore
