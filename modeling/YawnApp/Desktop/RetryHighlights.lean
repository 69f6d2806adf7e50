import YawnApp.SessionCore.RetryDiff

set_option autoImplicit false

/-!
# The highlights of a retry

`retryTurnDiffSegments` splits the text of a turn at white space and highlights
the words the comparison flagged.  JavaScript and Rust do not agree on white
space: U+0085 separates words only in Rust, U+FEFF only in JavaScript.  The
renderer compares the two word counts and highlights nothing where they differ;
where they agree by accident it highlights what it found under the index.
-/

namespace YawnApp.Desktop

open YawnApp.Foundation YawnApp.SessionCore
open YawnApp.SessionCore.RetryDiff (splitWhitespace WordSpan TurnDiffSpans Compared)

/-! ## The renderer -/

/-- `\s`, the white space of ECMAScript with its line terminators. -/
def isSpace (c : Char) : Bool :=
  (9 ≤ c.toNat && c.toNat ≤ 13) || c.toNat == 0x20 || c.toNat == 0xA0 || c.toNat == 0x1680 ||
    (0x2000 ≤ c.toNat && c.toNat ≤ 0x200A) || c.toNat == 0x2028 || c.toNat == 0x2029 ||
    c.toNat == 0x202F || c.toNat == 0x205F || c.toNat == 0x3000 || c.toNat == 0xFEFF

/-- The scan of `split(/(\s+)/)`: `part` is what was read of the part that is open,
a separator if `inSpace`. -/
def splitFrom (inSpace : Bool) (part : List Char) : List Char → List (List Char)
  | [] => if inSpace then [part, []] else [part]
  | c :: rest =>
    if isSpace c = inSpace then splitFrom inSpace (part ++ [c]) rest
    else part :: splitFrom (isSpace c) [c] rest

/-- `source.split(/(\s+)/)`: words at the even places, separators at the odd ones. -/
def split (source : List Char) : List (List Char) := splitFrom false [] source

/-- An entry of `retryDiffSpansByTurn`. -/
structure RetryEntry where
  wordCount : Option Nat
  spans : List WordSpan

/-- The entry made of what the comparison answers for a turn. -/
def entryOf (entry : TurnDiffSpans) : RetryEntry := ⟨some entry.wordCount, entry.spans⟩

structure Segment where
  text : List Char
  wordIndex : Int

structure ShownSegment where
  text : String
  highlighted : Bool
deriving DecidableEq

/-- The loop over the parts from the `i`-th: the segments, and the words counted. -/
def segmentsFrom : Nat → Nat → List (List Char) → List Segment × Nat
  | _, wordCount, [] => ([], wordCount)
  | i, wordCount, part :: parts =>
    if part = [] then segmentsFrom (i + 1) wordCount parts
    else if i % 2 = 1 then
      let (segments, count) := segmentsFrom (i + 1) wordCount parts
      (⟨part, -1⟩ :: segments, count)
    else
      let (segments, count) := segmentsFrom (i + 1) (wordCount + 1) parts
      (⟨part, wordCount⟩ :: segments, count)

/-- `wordIndex >= span.startWord && wordIndex < span.endWord` for one of the spans. -/
def inSpans (spans : List WordSpan) (wordIndex : Int) : Bool :=
  spans.any fun span => decide (span.startWord ≤ wordIndex) && decide (wordIndex < span.endWord)

def retryTurnDiffSegments (text : String) (entry : Option RetryEntry) : List ShownSegment :=
  if text = "" then []
  else
    let spans := (entry.map RetryEntry.spans).getD []
    let expectedWordCount := entry.bind RetryEntry.wordCount
    let (segments, wordCount) := segmentsFrom 0 0 (split text.toList)
    let tokenizationAgrees := decide (expectedWordCount = some wordCount)
    segments.map fun (segment : Segment) =>
      { text := String.ofList segment.text
        highlighted := decide (segment.wordIndex ≥ 0) && tokenizationAgrees &&
          inSpans spans segment.wordIndex }

/-! ## What is shown -/

/-- Segments with the position of their first character. -/
def placed : Nat → List ShownSegment → List (Nat × ShownSegment)
  | _, [] => []
  | position, segment :: segments =>
    (position, segment) :: placed (position + segment.text.toList.length) segments

/-- The highlighted segments, as words of the text. -/
def highlighted (segments : List ShownSegment) : List (Nat × List Char) :=
  (placed 0 segments).filterMap fun (position, segment) =>
    if segment.highlighted then some (position, segment.text.toList) else none

/-- The words of the comparison whose index lies in a span. -/
def flaggedWords (text : String) (spans : List WordSpan) : List (Nat × List Char) :=
  pick (fun i => inSpans spans i) 0 (splitWhitespace text)

/-- The segments are the text, with the flagged words highlighted or nothing. -/
def MarksFlaggedOrNothing (text : String) (entry : TurnDiffSpans) : Prop :=
  let shown := retryTurnDiffSegments text (some (entryOf entry))
  String.join (shown.map ShownSegment.text) = text ∧
    (highlighted shown = [] ∨ highlighted shown = flaggedWords text entry.spans)

/-! ## The two white spaces -/

/-- The renderer's own words. -/
def renderedWords (text : List Char) : List (Nat × List Char) := words isSpace text

/-- White space for one of the two only. -/
theorem isSpace_eq (c : Char) :
    isSpace c = ((isWhitespace c && c.toNat != 0x85) || c.toNat == 0xFEFF) := by
  rw [Bool.eq_iff_iff]
  simp only [isSpace, isWhitespace, Bool.or_eq_true, Bool.and_eq_true, decide_eq_true_eq,
    beq_iff_eq, bne_iff_ne]
  omega

/-- A letter of a word of the comparison separates for the renderer if it is U+FEFF. -/
theorem isSpace_of_letter {c : Char} (h : isWhitespace c = false) :
    isSpace c = false ↔ c.toNat ≠ 0xFEFF := by
  rw [isSpace_eq, h]
  simp

/-- A separator of the comparison separates for the renderer unless it is U+0085. -/
theorem isSpace_of_separator {c : Char} (h : isWhitespace c = true) :
    isSpace c = true ↔ c.toNat ≠ 0x85 := by
  rw [isSpace_eq, h]
  simp only [Bool.true_and, Bool.or_eq_true, bne_iff_ne, beq_iff_eq, or_iff_left_iff_imp]
  omega

/-- What keeps a word of the comparison a word of the renderer, under the same
index: it has no U+FEFF, no U+0085 beside it, and the text before it has as many
words for both. -/
structure Stands (text : List Char) (position : Nat) (word : List Char) : Prop where
  letters : ∀ c ∈ word, c.toNat ≠ 0xFEFF
  before : ∀ c, (text.take position).getLast? = some c → c.toNat ≠ 0x85
  after : ∀ c, (text.drop (position + word.length)).head? = some c → c.toNat ≠ 0x85
  count : (renderedWords (text.take position)).length =
    (words isWhitespace (text.take position)).length

theorem renderedWords_getElem?_iff {text : List Char} {i position : Nat} {word : List Char}
    (h : (words isWhitespace text)[i]? = some (position, word)) :
    (renderedWords text)[i]? = some (position, word) ↔ Stands text position word := by
  obtain ⟨hrun, -⟩ := words_getElem?_iff.mp h
  have hletters : (∀ c ∈ word, isSpace c = false) ↔ ∀ c ∈ word, c.toNat ≠ 0xFEFF :=
    forall₂_congr fun c hc => isSpace_of_letter (hrun.letters c hc)
  have hbefore : IsEdge isSpace (text.take position).getLast? ↔
      ∀ c, (text.take position).getLast? = some c → c.toNat ≠ 0x85 :=
    forall₂_congr fun c hc => isSpace_of_separator (hrun.starts c hc)
  have hafter : IsEdge isSpace (text.drop (position + word.length)).head? ↔
      ∀ c, (text.drop (position + word.length)).head? = some c → c.toNat ≠ 0x85 :=
    forall₂_congr fun c hc => isSpace_of_separator (hrun.stops c hc)
  unfold renderedWords
  rw [words_getElem?_eq_iff h, hletters, hbefore, hafter]
  constructor
  · rintro ⟨h₁, h₂, h₃, h₄⟩
    exact ⟨h₁, h₂, h₃, h₄⟩
  · intro h
    exact ⟨h.letters, h.before, h.after, h.count⟩

/-! ## What the renderer highlights -/

theorem flatten_splitFrom (rest : List Char) :
    ∀ (inSpace : Bool) (part : List Char), (splitFrom inSpace part rest).flatten = part ++ rest := by
  induction rest with
  | nil =>
    intro inSpace part
    cases inSpace <;> simp [splitFrom]
  | cons c rest ih =>
    intro inSpace part
    rw [splitFrom]
    split
    · rw [ih, List.append_assoc, List.singleton_append]
    · rw [List.flatten_cons, ih, List.singleton_append]

theorem flatten_segmentsFrom (parts : List (List Char)) :
    ∀ i n, ((segmentsFrom i n parts).1.map Segment.text).flatten = parts.flatten := by
  induction parts with
  | nil => intro i n; rfl
  | cons part parts ih =>
    intro i n
    rw [segmentsFrom]
    split
    · rename_i hpart
      rw [ih, hpart, List.flatten_cons, List.nil_append]
    · split <;> simp [ih]

/-- The words among segments, with their positions and indices. -/
def wordsAt : Nat → List Segment → List ((Nat × List Char) × Nat)
  | _, [] => []
  | position, segment :: segments =>
    (if 0 ≤ segment.wordIndex then [((position, segment.text), segment.wordIndex.toNat)] else []) ++
      wordsAt (position + segment.text.length) segments

/-- The word that is open while a part is read. -/
def openWord (inSpace : Bool) (part : List Char) (position : Nat) : Option (Nat × List Char) :=
  if inSpace = true ∨ part = [] then none else some (position, part)

/-- The segments are the words of the text in their order, and the count is theirs. -/
theorem wordsAt_segmentsFrom (rest : List Char) :
    ∀ (inSpace : Bool) (part : List Char) (i n position : Nat), (i % 2 = 1 ↔ inSpace = true) →
      (inSpace = true → part ≠ []) →
      wordsAt position (segmentsFrom i n (splitFrom inSpace part rest)).1 =
          (wordsFrom isSpace (openWord inSpace part position) (position + part.length) rest).zipIdx n ∧
        (segmentsFrom i n (splitFrom inSpace part rest)).2 =
          n + (wordsFrom isSpace (openWord inSpace part position) (position + part.length)
            rest).length := by
  induction rest with
  | nil =>
    intro inSpace part i n position hi hpart
    cases inSpace with
    | true => simp [splitFrom, segmentsFrom, hi, hpart rfl, wordsAt, openWord, wordsFrom]
    | false =>
      have hi : i % 2 ≠ 1 := fun h => Bool.false_ne_true (hi.mp h)
      by_cases hempty : part = []
      · simp [splitFrom, segmentsFrom, hempty, wordsAt, openWord, wordsFrom]
      · simp [splitFrom, segmentsFrom, hi, hempty, wordsAt, openWord, wordsFrom]
  | cons c rest ih =>
    intro inSpace part i n position hi hpart
    rw [splitFrom]
    cases inSpace with
    | true =>
      cases hc : isSpace c with
      | true =>
        rw [if_pos rfl]
        have h := ih true (part ++ [c]) i n position hi (by simp)
        simpa [openWord, wordsFrom, hc, Nat.add_assoc] using h
      | false =>
        rw [if_neg Bool.false_ne_true]
        have hodd : i % 2 = 1 := hi.mpr rfl
        have h := ih false [c] (i + 1) n (position + part.length) (by simp; omega) (by simp)
        simpa [segmentsFrom, hpart rfl, hodd, wordsAt, openWord, wordsFrom, hc] using h
    | false =>
      have hodd : i % 2 ≠ 1 := fun h => Bool.false_ne_true (hi.mp h)
      cases hc : isSpace c with
      | true =>
        rw [if_neg (by decide)]
        by_cases hempty : part = []
        · have h := ih true [c] (i + 1) n position (by simp; omega) (by simp)
          simpa [segmentsFrom, hempty, wordsAt, openWord, wordsFrom, hc] using h
        · have h := ih true [c] (i + 1) (n + 1) (position + part.length) (by simp; omega) (by simp)
          obtain ⟨hwords, hcount⟩ := h
          constructor
          · simp only [segmentsFrom, if_neg hempty, if_neg hodd, wordsAt, hwords]
            simp [openWord, hempty, wordsFrom, hc]
          · simp only [segmentsFrom, if_neg hempty, if_neg hodd, hcount]
            simp [openWord, hempty, wordsFrom, hc]
            omega
      | false =>
        rw [if_pos rfl]
        have h := ih false (part ++ [c]) i n position hi (by simp)
        by_cases hempty : part = []
        · simpa [openWord, wordsFrom, hc, hempty] using h
        · simpa [openWord, wordsFrom, hc, hempty, Nat.add_assoc] using h

theorem segmentsFrom_split (text : List Char) :
    wordsAt 0 (segmentsFrom 0 0 (split text)).1 = (renderedWords text).zipIdx ∧
      (segmentsFrom 0 0 (split text)).2 = (renderedWords text).length := by
  have h := wordsAt_segmentsFrom text false [] 0 0 0 (by simp) (by simp)
  simpa [openWord, split, renderedWords, words] using h

/-- The highlighted among shown segments are the words that are marked. -/
theorem highlighted_map (mark : Int → Bool) (hmark : ∀ i < 0, mark i = false)
    (segments : List Segment) : ∀ position,
      ((placed position (segments.map fun segment =>
          (⟨String.ofList segment.text, mark segment.wordIndex⟩ : ShownSegment))).filterMap
        fun (position, segment) =>
          if segment.highlighted then some (position, segment.text.toList) else none) =
      (wordsAt position segments).filterMap fun (word, i) => if mark i then some word else none := by
  induction segments with
  | nil => intro position; rfl
  | cons segment segments ih =>
    intro position
    rw [List.map_cons, placed, List.filterMap_cons, wordsAt, List.filterMap_append,
      String.toList_ofList, ih]
    by_cases hindex : 0 ≤ segment.wordIndex
    · have hnat : ((segment.wordIndex.toNat : Nat) : Int) = segment.wordIndex :=
        Int.toNat_of_nonneg hindex
      rw [if_pos hindex, List.filterMap_cons]
      cases hmarked : mark segment.wordIndex <;> simp [hnat, hmarked]
    · rw [if_neg hindex, hmark _ (Int.not_le.mp hindex)]
      rfl

/-- What is highlighted: the words under the flagged indices where the counts
agree, and nothing where they do not. -/
theorem highlighted_retryTurnDiffSegments (text : String) (entry : TurnDiffSpans) :
    highlighted (retryTurnDiffSegments text (some (entryOf entry))) =
      if (renderedWords text.toList).length = entry.wordCount then
        pick (fun i => inSpans entry.spans i) 0 (renderedWords text.toList)
      else [] := by
  unfold highlighted retryTurnDiffSegments
  split
  · rename_i hempty
    rw [hempty]
    split <;> rfl
  · obtain ⟨hwords, hcount⟩ := segmentsFrom_split text.toList
    have hmarked := highlighted_map (fun i => decide (i ≥ 0) &&
        decide (some entry.wordCount = some (segmentsFrom 0 0 (split text.toList)).2) &&
        inSpans entry.spans i) (fun i hi => by simp; omega)
      (segmentsFrom 0 0 (split text.toList)).1 0
    apply hmarked.trans
    rw [hwords, hcount]
    unfold pick
    split
    · rename_i hsame
      simp [hsame]
    · rename_i hdiffers
      have hne : ¬ entry.wordCount = (renderedWords text.toList).length := fun h => hdiffers h.symm
      simp [hne]

theorem join_retryTurnDiffSegments (text : String) (entry : Option RetryEntry) :
    String.join ((retryTurnDiffSegments text entry).map ShownSegment.text) = text := by
  unfold retryTurnDiffSegments
  split
  · rename_i hempty
    rw [hempty]
    rfl
  · have hparts : ((segmentsFrom 0 0 (split text.toList)).1.map Segment.text).flatten = text.toList := by
      rw [flatten_segmentsFrom]
      exact flatten_splitFrom text.toList false []
    rw [← String.toList_inj]
    refine Eq.trans ?_ hparts
    simp [List.flatMap, Function.comp_def]

/-- The renderer marks the flagged words or nothing exactly where the two readers
count differently, or where every flagged word stands: it holds no U+FEFF, has no
U+0085 beside it, and as many words before it for both. -/
theorem retryTurnDiffSegments_marks_iff {text : String} {entry : TurnDiffSpans}
    (h : Compared text entry) :
    MarksFlaggedOrNothing text entry ↔
      (renderedWords text.toList).length ≠ (splitWhitespace text).length ∨
        ∀ (i : Nat) position word, (splitWhitespace text)[i]? = some (position, word) →
          inSpans entry.spans i = true → Stands text.toList position word := by
  have hcount := RetryDiff.wordCount_of_compared h
  unfold MarksFlaggedOrNothing
  dsimp only
  rw [highlighted_retryTurnDiffSegments, hcount]
  by_cases hlength : (renderedWords text.toList).length = (splitWhitespace text).length
  · rw [if_pos hlength]
    -- the words are as many, so none is picked from the one list as from the other
    have hone : (pick (fun i => inSpans entry.spans i) 0 (renderedWords text.toList) = [] ∨
        pick (fun i => inSpans entry.spans i) 0 (renderedWords text.toList) =
          flaggedWords text entry.spans) ↔
        pick (fun i => inSpans entry.spans i) 0 (renderedWords text.toList) =
          pick (fun i => inSpans entry.spans i) 0 (splitWhitespace text) := by
      refine ⟨fun h => h.elim (fun hnil => ?_) id, Or.inr⟩
      rw [hnil, pick_eq_nil_of_length hlength 0 hnil]
    rw [hone, pick_eq_pick_iff hlength]
    constructor
    · rintro ⟨-, hsame⟩
      refine .inr fun i position word hword hin => ?_
      have hrendered := hsame i (position, word) hword (by rwa [Nat.zero_add])
      exact (renderedWords_getElem?_iff hword).mp hrendered
    · intro h
      refine ⟨join_retryTurnDiffSegments text _, fun i word hword hin => ?_⟩
      have hstands := h.resolve_left (not_not.mpr hlength) i word.1 word.2 hword
        (by rwa [Nat.zero_add] at hin)
      exact (renderedWords_getElem?_iff hword).mpr hstands
  · rw [if_neg hlength]
    exact iff_of_true ⟨join_retryTurnDiffSegments text _, .inl rfl⟩ (.inl hlength)

/-! ## A text the two read differently, with one count -/

/-- Three words for both: U+0085 ends the first only in Rust, U+FEFF splits the
last only in JavaScript. -/
def mixedText : String := String.ofList ['a', Char.ofNat 0x85, 'b', ' ', 'c', Char.ofNat 0xFEFF, 'd']

def mixedRetry : String := String.ofList ['x', Char.ofNat 0x85, 'b', ' ', 'c', Char.ofNat 0xFEFF, 'd']

def mixedEntry : TurnDiffSpans := ⟨0, 3, [⟨0, 1⟩]⟩

theorem diff_mixed : RetryDiff.diffTranscriptTurns [.visible mixedText] [.visible mixedRetry] =
    some ⟨.computed, [mixedEntry], [mixedEntry]⟩ := by
  decide +kernel

theorem compared_mixed : Compared mixedText mixedEntry :=
  ⟨[.visible mixedText], [.visible mixedRetry], _, diff_mixed, .inl (List.mem_singleton.mpr rfl)⟩

/-- The retry differs from the turn in the word `a`; what is highlighted is `a`,
U+0085 and `b`. -/
theorem highlights_another_word :
    Compared mixedText mixedEntry ∧ flaggedWords mixedText mixedEntry.spans = [(0, ['a'])] ∧
      highlighted (retryTurnDiffSegments mixedText (some (entryOf mixedEntry))) =
        [(0, ['a', Char.ofNat 0x85, 'b'])] ∧
      ¬ MarksFlaggedOrNothing mixedText mixedEntry := by
  have hflagged : flaggedWords mixedText mixedEntry.spans = [(0, ['a'])] := by decide
  have hshown : highlighted (retryTurnDiffSegments mixedText (some (entryOf mixedEntry))) =
      [(0, ['a', Char.ofNat 0x85, 'b'])] := by
    rw [highlighted_retryTurnDiffSegments]
    decide
  refine ⟨compared_mixed, hflagged, hshown, fun h => ?_⟩
  have hmarks := h.2
  rw [hshown, hflagged] at hmarks
  rcases hmarks with hmarks | hmarks <;> simp at hmarks

/-- The theorem at that turn. -/
theorem retryTurnDiffSegments_marks_iff_mixed :
    ¬ ((renderedWords mixedText.toList).length ≠ (splitWhitespace mixedText).length ∨
      ∀ (i : Nat) position word, (splitWhitespace mixedText)[i]? = some (position, word) →
        inSpans mixedEntry.spans i = true → Stands mixedText.toList position word) := by
  rw [← retryTurnDiffSegments_marks_iff compared_mixed]
  intro h
  have hmarks := h.2
  rw [highlighted_retryTurnDiffSegments] at hmarks
  revert hmarks
  decide

end YawnApp.Desktop
