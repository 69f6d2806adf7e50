import YawnApp.Foundation.WordRanges
import YawnApp.SessionCore.CorpusWindow

set_option autoImplicit false

/-!
# The words of the windows of a transcript

The loop of `windows` takes one word after another.  What it keeps depends on the words
alone: after so many of them it has finished one window for each full block, and the open
segments are those of the words that are left.  The segments of a block are then cut into
runs of words of one turn, from which `window_text` reads the same words again.
-/

namespace YawnApp.SessionCore.CorpusWindow

open YawnApp.Foundation List

/-! ## Words of turns -/

/-- One word of a turn. -/
structure SpokenWord where
  sourceTurnIndex : Nat
  place : Nat × List Char
deriving DecidableEq

/-- The words of a turn, in order. -/
def turnWords (turn : WindowTurn) : List SpokenWord :=
  (words isWordSeparator turn.text.toList).map fun place => ⟨turn.index, place⟩

/-- The words of the turns that are not gated, in order. -/
def spokenWords (turns : List WindowTurn) : List SpokenWord :=
  (turns.filter fun turn => !turn.gated).flatMap turnWords

theorem wordSpansFrom_eq (text : List Char) :
    ∀ (opened : Option (Nat × List Char)) (scalar : Nat),
      (∀ word, opened = some word → wordStop word = scalar) →
      wordSpansFrom (opened.map Prod.fst) scalar text =
        (wordsFrom isWordSeparator opened scalar text).map fun word => (word.1, wordStop word) := by
  induction text with
  | nil =>
    intro opened scalar hopened
    cases opened with
    | none => rfl
    | some word =>
      have := hopened word rfl
      simp [wordSpansFrom, wordsFrom, this]
  | cons c text ih =>
    intro opened scalar hopened
    rw [wordSpansFrom, wordsFrom]
    cases hc : isWordSeparator c with
    | true =>
      rw [if_pos rfl, if_pos rfl, map_append, ← ih none (scalar + 1) (by simp)]
      cases opened with
      | none => rfl
      | some word =>
        have := hopened word rfl
        simp [this]
    | false =>
      rw [if_neg Bool.false_ne_true, if_neg Bool.false_ne_true,
        ← ih _ (scalar + 1) fun word hword => ?_]
      · cases opened <;> rfl
      · cases opened with
        | none =>
          cases hword
          rfl
        | some first =>
          cases hword
          have := hopened first rfl
          rw [wordStop] at this
          rw [wordStop, Option.elim_some, length_append, length_singleton]
          omega

theorem wordSpans_eq (text : String) :
    wordSpans text =
      (words isWordSeparator text.toList).map fun word => (word.1, wordStop word) :=
  wordSpansFrom_eq text.toList none 0 (by simp)

/-! ## The loop -/

/-- The body of the loop of `windows`. -/
def takeWord (state : Segmentation) (word : SpokenWord) : Segmentation :=
  addWord word.sourceTurnIndex state (word.place.1, wordStop word.place)

/-- The segments of consecutive words. -/
def segmentsOf (block : List SpokenWord) : List WindowSegment :=
  block.foldl (fun segments word =>
    extendSegments word.sourceTurnIndex (word.place.1, wordStop word.place) segments) []

theorem segmentsOf_append (block : List SpokenWord) (word : SpokenWord) :
    segmentsOf (block ++ [word]) = extendSegments word.sourceTurnIndex
      (word.place.1, wordStop word.place) (segmentsOf block) := by
  unfold segmentsOf
  rw [foldl_append, foldl_cons, foldl_nil]

theorem foldl_addTurn (turns : List WindowTurn) :
    ∀ state : Segmentation,
      turns.foldl addTurn state = (spokenWords turns).foldl takeWord state := by
  induction turns with
  | nil => intro state; rfl
  | cons turn turns ih =>
    intro state
    rw [foldl_cons, ih]
    unfold spokenWords addTurn
    cases hgated : turn.gated with
    | true => simp [hgated]
    | false =>
      rw [filter_cons_of_pos (by simp [hgated]), flatMap_cons, foldl_append,
        if_neg Bool.false_ne_true, wordSpans_eq]
      congr 1
      unfold turnWords
      rw [foldl_map, foldl_map]
      rfl

/-- The block of words of the window `index`. -/
def blockOf (spoken : List SpokenWord) (index : Nat) : List SpokenWord :=
  (spoken.drop (windowWords * index)).take windowWords

/-- The window of a block. -/
def windowOf (spoken : List SpokenWord) (index : Nat) : Window :=
  ⟨index, (blockOf spoken index).length, segmentsOf (blockOf spoken index)⟩

/-- What the loop has after the given words. -/
structure Reached (spoken : List SpokenWord) (state : Segmentation) : Prop where
  finished : state.finished = (List.range (spoken.length / windowWords)).map (windowOf spoken)
  segments : state.segments =
    segmentsOf (spoken.drop (windowWords * (spoken.length / windowWords)))
  words : state.words = spoken.length % windowWords

/-- A full block does not change when words follow. -/
theorem windowOf_append {spoken : List SpokenWord} {index : Nat}
    (h : windowWords * (index + 1) ≤ spoken.length) (rest : List SpokenWord) :
    windowOf (spoken ++ rest) index = windowOf spoken index := by
  have hblock : blockOf (spoken ++ rest) index = blockOf spoken index := by
    unfold blockOf
    unfold windowWords at h ⊢
    rw [drop_append_of_le_length (by omega), take_append_of_le_length]
    rw [length_drop]
    omega
  unfold windowOf
  rw [hblock]

theorem Reached.takeWord {spoken : List SpokenWord} {state : Segmentation}
    (h : Reached spoken state) (word : SpokenWord) :
    Reached (spoken ++ [word]) (takeWord state word) := by
  have hold : (List.range (spoken.length / windowWords)).map (windowOf (spoken ++ [word])) =
      (List.range (spoken.length / windowWords)).map (windowOf spoken) := by
    refine map_congr_left fun index hindex => windowOf_append ?_ _
    rw [mem_range] at hindex
    unfold windowWords at hindex ⊢
    omega
  have hopen : segmentsOf (spoken.drop (windowWords * (spoken.length / windowWords)) ++ [word]) =
      extendSegments word.sourceTurnIndex (word.place.1, wordStop word.place) state.segments := by
    rw [segmentsOf_append, h.segments]
  have hdrop : (spoken ++ [word]).drop (windowWords * (spoken.length / windowWords)) =
      spoken.drop (windowWords * (spoken.length / windowWords)) ++ [word] := by
    rw [drop_append_of_le_length]
    exact Nat.mul_div_le _ _
  have hwords := h.words
  unfold CorpusWindow.takeWord addWord
  dsimp only
  split
  · -- the window is full
    rename_i hfull
    have hdiv : (spoken.length + 1) / windowWords = spoken.length / windowWords + 1 := by
      unfold windowWords at hfull hwords ⊢
      omega
    have hmod : (spoken.length + 1) % windowWords = 0 := by
      unfold windowWords at hfull hwords ⊢
      omega
    have hlength : spoken.length + 1 = windowWords * (spoken.length / windowWords + 1) := by
      unfold windowWords at hfull hwords ⊢
      omega
    have hblock : blockOf (spoken ++ [word]) (spoken.length / windowWords) =
        spoken.drop (windowWords * (spoken.length / windowWords)) ++ [word] := by
      unfold blockOf
      rw [hdrop, take_of_length_le]
      rw [length_append, length_drop, length_singleton]
      unfold windowWords at hlength ⊢
      omega
    have hcount : spoken.length - windowWords * (spoken.length / windowWords) + 1 =
        state.words + 1 := by
      unfold windowWords at hfull hwords hlength ⊢
      omega
    have hwindow : windowOf (spoken ++ [word]) (spoken.length / windowWords) =
        ⟨state.finished.length, state.words + 1, extendSegments word.sourceTurnIndex
          (word.place.1, wordStop word.place) state.segments⟩ := by
      unfold windowOf
      rw [hblock, hopen, length_append, length_drop, length_singleton, hcount,
        h.finished, length_map, length_range]
    refine ⟨?_, ?_, ?_⟩
    · dsimp only
      rw [length_append, length_singleton, hdiv, range_succ, map_append, hold,
        ← h.finished, map_singleton, hwindow]
    · dsimp only
      rw [length_append, length_singleton, hdiv, ← hlength, drop_of_length_le]
      · rfl
      · rw [length_append, length_singleton]
    · dsimp only
      rw [length_append, length_singleton, hmod]
  · rename_i hopened
    have hdiv : (spoken.length + 1) / windowWords = spoken.length / windowWords := by
      unfold windowWords at hopened hwords ⊢
      omega
    refine ⟨?_, ?_, ?_⟩
    · dsimp only
      rw [length_append, length_singleton, hdiv, hold, h.finished]
    · dsimp only
      rw [length_append, length_singleton, hdiv, hdrop, hopen]
    · dsimp only
      rw [length_append, length_singleton]
      unfold windowWords at hopened hwords ⊢
      omega

theorem reached_foldl (spoken : List SpokenWord) :
    Reached spoken (spoken.foldl takeWord ⟨[], [], 0⟩) := by
  induction spoken using List.reverseRecOn with
  | nil => exact ⟨rfl, rfl, rfl⟩
  | append_singleton spoken word ih =>
    rw [foldl_append, foldl_cons, foldl_nil]
    exact ih.takeWord word

/-- The windows are the blocks of the words. -/
theorem windows_eq (turns : List WindowTurn) :
    windows turns = (List.range (((spokenWords turns).length + windowWords - 1) / windowWords)).map
      (windowOf (spokenWords turns)) := by
  have h := reached_foldl (spokenWords turns)
  have hwords := h.words
  unfold windows
  rw [foldl_addTurn]
  dsimp only
  split
  · rename_i hopen
    have hcount : ((spokenWords turns).length + windowWords - 1) / windowWords =
        (spokenWords turns).length / windowWords + 1 := by
      unfold windowWords at hwords ⊢
      omega
    have hblock : blockOf (spokenWords turns) ((spokenWords turns).length / windowWords) =
        (spokenWords turns).drop (windowWords * ((spokenWords turns).length / windowWords)) := by
      unfold blockOf
      rw [take_of_length_le]
      rw [length_drop]
      unfold windowWords
      omega
    have hlength : (spokenWords turns).length -
        windowWords * ((spokenWords turns).length / windowWords) =
          (spokenWords turns).length % windowWords := by
      unfold windowWords
      omega
    have hwindow : windowOf (spokenWords turns) ((spokenWords turns).length / windowWords) =
        ⟨((spokenWords turns).foldl takeWord ⟨[], [], 0⟩).finished.length,
          ((spokenWords turns).foldl takeWord ⟨[], [], 0⟩).words,
          ((spokenWords turns).foldl takeWord ⟨[], [], 0⟩).segments⟩ := by
      unfold windowOf
      rw [hblock, ← h.segments, length_drop, hlength, hwords, h.finished, length_map,
        length_range]
    rw [hcount, range_succ, map_append, map_singleton, ← h.finished, hwindow]
  · rename_i hnone
    have hcount : ((spokenWords turns).length + windowWords - 1) / windowWords =
        (spokenWords turns).length / windowWords := by
      unfold windowWords at hwords ⊢
      omega
    rw [hcount, h.finished]

/-! ## Segments and runs of words -/

/-- A segment that goes from the first to the last of some words of its turn. -/
structure RunOf (segment : WindowSegment) (run : List SpokenWord) : Prop where
  turn : ∀ word ∈ run, word.sourceTurnIndex = segment.sourceTurnIndex
  start : run.head?.map (fun word => word.place.1) = some segment.originalScalarStart
  stop : run.getLast?.map (fun word => wordStop word.place) = some segment.originalScalarEnd

/-- The segments cut the block into runs. -/
def Cuts (segments : List WindowSegment) (block : List SpokenWord) : Prop :=
  ∃ pieces : List (WindowSegment × List SpokenWord), pieces.map Prod.fst = segments ∧
    pieces.flatMap Prod.snd = block ∧ ∀ piece ∈ pieces, RunOf piece.1 piece.2

variable {run : List SpokenWord} {segment : WindowSegment}

theorem RunOf.ne_nil (h : RunOf segment run) : run ≠ [] := by
  rintro rfl
  cases h.start

theorem runOf_singleton (word : SpokenWord) :
    RunOf ⟨word.sourceTurnIndex, word.place.1, wordStop word.place⟩ [word] :=
  ⟨by simp, rfl, rfl⟩

theorem RunOf.extend (h : RunOf segment run) {word : SpokenWord}
    (hturn : segment.sourceTurnIndex = word.sourceTurnIndex) :
    RunOf { segment with originalScalarEnd := wordStop word.place } (run ++ [word]) := by
  refine ⟨?_, ?_, ?_⟩
  · intro other hother
    rcases mem_append.mp hother with hold | hnew
    · exact h.turn other hold
    · rw [mem_singleton.mp hnew]
      exact hturn.symm
  · rw [List.head?_append_of_ne_nil _ h.ne_nil]
    exact h.start
  · rw [List.getLast?_concat]
    rfl

/-- One more word keeps the cut. -/
theorem Cuts.extend {segments : List WindowSegment} {block : List SpokenWord}
    (h : Cuts segments block) (word : SpokenWord) :
    Cuts (extendSegments word.sourceTurnIndex (word.place.1, wordStop word.place) segments)
      (block ++ [word]) := by
  obtain ⟨pieces, rfl, rfl, hruns⟩ := h
  unfold extendSegments
  rcases eq_nil_or_concat' pieces with rfl | ⟨before, last, rfl⟩
  · exact ⟨[(_, [word])], rfl, rfl, by simpa using runOf_singleton word⟩
  · rw [map_append, map_singleton, List.getLast?_concat]
    dsimp only
    have hbefore : ∀ piece ∈ before, RunOf piece.1 piece.2 := fun piece hpiece =>
      hruns piece (mem_append_left _ hpiece)
    have hlast := hruns last (mem_append_right _ (mem_singleton_self last))
    split
    · rename_i hturn
      refine ⟨before ++ [({ last.1 with originalScalarEnd := wordStop word.place },
        last.2 ++ [word])], ?_, ?_, ?_⟩
      · rw [map_append, map_singleton, dropLast_concat]
      · rw [flatMap_append, flatMap_append, flatMap_singleton,
          flatMap_singleton, append_assoc]
      · intro piece hpiece
        rcases mem_append.mp hpiece with hold | hnew
        · exact hbefore piece hold
        · rw [mem_singleton.mp hnew]
          exact hlast.extend hturn
    · refine ⟨before ++ [last] ++ [(⟨word.sourceTurnIndex, word.place.1, wordStop word.place⟩,
        [word])], ?_, ?_, ?_⟩
      · rw [map_append, map_append, map_singleton, map_singleton]
      · rw [@flatMap_append _ _ (before ++ [last]), flatMap_singleton]
      · intro piece hpiece
        rcases mem_append.mp hpiece with hold | hnew
        · exact hruns piece hold
        · rw [mem_singleton.mp hnew]
          exact runOf_singleton word

theorem cuts_segmentsOf (block : List SpokenWord) : Cuts (segmentsOf block) block := by
  induction block using List.reverseRecOn with
  | nil => exact ⟨[], rfl, rfl, by simp⟩
  | append_singleton block word ih =>
    rw [segmentsOf_append]
    exact ih.extend word

/-! ## The turn of a run -/

section Turns

variable {turns : List WindowTurn}

theorem mem_turnWords {turn : WindowTurn} {word : SpokenWord} (h : word ∈ turnWords turn) :
    word.sourceTurnIndex = turn.index := by
  unfold turnWords at h
  obtain ⟨place, -, rfl⟩ := mem_map.mp h
  rfl

theorem mem_spokenWords {word : SpokenWord} :
    word ∈ spokenWords turns ↔ ∃ turn ∈ turns, turn.gated = false ∧ word ∈ turnWords turn := by
  unfold spokenWords
  simp only [mem_flatMap, mem_filter, Bool.not_eq_true', and_assoc]

/-- The words with the index of a turn are its words. -/
theorem filter_spokenWords (hindices : (turns.map WindowTurn.index).Nodup) {turn : WindowTurn}
    (hturn : turn ∈ turns) (hgated : turn.gated = false) :
    (spokenWords turns).filter (fun word => word.sourceTurnIndex == turn.index) =
      turnWords turn := by
  have hother : ∀ (l : List WindowTurn), turn.index ∉ l.map WindowTurn.index →
      (spokenWords l).filter (fun word => word.sourceTurnIndex == turn.index) = [] := by
    intro l hl
    rw [filter_eq_nil_iff]
    intro word hword heq
    obtain ⟨other, hmem, -, hin⟩ := mem_spokenWords.mp hword
    apply hl
    rw [← beq_iff_eq.mp heq, mem_turnWords hin]
    exact mem_map_of_mem hmem
  have hsame : (turnWords turn).filter (fun word => word.sourceTurnIndex == turn.index) =
      turnWords turn := by
    rw [filter_eq_self]
    exact fun word hword => beq_iff_eq.mpr (mem_turnWords hword)
  induction turns with
  | nil => cases hturn
  | cons first rest ih =>
    rw [map_cons, nodup_cons] at hindices
    have hsplit : spokenWords (first :: rest) =
        (if first.gated then [] else turnWords first) ++ spokenWords rest := by
      unfold spokenWords
      cases hfirst : first.gated with
      | true => rw [filter_cons_of_neg (by simp [hfirst])]; rfl
      | false => rw [filter_cons_of_pos (by simp [hfirst]), flatMap_cons]; rfl
    rw [hsplit, filter_append]
    rcases mem_cons.mp hturn with rfl | hmem
    · rw [hgated, if_neg Bool.false_ne_true, hsame, hother rest hindices.1, append_nil]
    · rw [ih hindices.2 hmem]
      have hne : first.index ≠ turn.index := fun heq =>
        hindices.1 (heq ▸ mem_map_of_mem hmem)
      have hnone : (if first.gated then [] else turnWords first).filter
          (fun word => word.sourceTurnIndex == turn.index) = [] := by
        rw [filter_eq_nil_iff]
        intro word hword heq
        split at hword
        · cases hword
        · exact hne (by rw [← mem_turnWords hword, beq_iff_eq.mp heq])
      rw [hnone, nil_append]

/-- A run of consecutive spoken words stands in one turn that is not gated. -/
theorem RunOf.exists_turn {segment : WindowSegment} {run : List SpokenWord}
    (h : RunOf segment run) (hindices : (turns.map WindowTurn.index).Nodup)
    (hwithin : run <:+: spokenWords turns) :
    ∃ turn ∈ turns, turn.gated = false ∧ turn.index = segment.sourceTurnIndex ∧
      run <:+: turnWords turn := by
  obtain ⟨first, hfirst⟩ := exists_mem_of_ne_nil run h.ne_nil
  obtain ⟨turn, hturn, hgated, hmem⟩ := mem_spokenWords.mp (hwithin.subset hfirst)
  have hindex : turn.index = segment.sourceTurnIndex := by
    rw [← mem_turnWords hmem, h.turn first hfirst]
  refine ⟨turn, hturn, hgated, hindex, ?_⟩
  have hrun : run.filter (fun word => word.sourceTurnIndex == turn.index) = run := by
    rw [filter_eq_self]
    intro word hword
    rw [beq_iff_eq, hindex]
    exact h.turn word hword
  rw [← hrun, ← filter_spokenWords hindices hturn hgated]
  exact hwithin.filter _

end Turns

/-! ## What a segment cites -/

/-- The word lies in the range of the segment. -/
def WindowSegment.covers (segment : WindowSegment) (word : SpokenWord) : Bool :=
  word.sourceTurnIndex == segment.sourceTurnIndex &&
    (decide (segment.originalScalarStart ≤ word.place.1) &&
      decide (wordStop word.place ≤ segment.originalScalarEnd))

/-- A segment lies within a turn that is not gated, and its ends split no word. -/
structure WellPlaced (turns : List WindowTurn) (segment : WindowSegment) (turn : WindowTurn) :
    Prop where
  mem : turn ∈ turns
  gated : turn.gated = false
  index : turn.index = segment.sourceTurnIndex
  nonempty : segment.originalScalarStart < segment.originalScalarEnd
  inside : segment.originalScalarEnd ≤ turn.text.toList.length
  starts : IsEdge isWordSeparator (turn.text.toList.take segment.originalScalarStart).getLast?
  stops : IsEdge isWordSeparator (turn.text.toList.drop segment.originalScalarEnd).head?

/-- The segment of a run cites its words and is read as them. -/
theorem RunOf.cites {turns : List WindowTurn} (h : RunOf segment run)
    (hindices : (turns.map WindowTurn.index).Nodup) (hwithin : run <:+: spokenWords turns) :
    ∃ turn, WellPlaced turns segment turn ∧ (spokenWords turns).filter segment.covers = run ∧
      (scalarSlice turn.text segment.originalScalarStart segment.originalScalarEnd).map splitWords =
        some (run.map fun word => word.place.2) := by
  obtain ⟨turn, hturn, hgated, hindex, hrun⟩ := h.exists_turn hindices hwithin
  obtain ⟨before, after, hwords⟩ := hrun
  -- the same run as words of the text
  have hplaces : words isWordSeparator turn.text.toList =
      before.map SpokenWord.place ++ run.map SpokenWord.place ++ after.map SpokenWord.place := by
    rw [← map_append, ← map_append, hwords]
    unfold turnWords
    rw [map_map]
    exact (map_id _).symm
  have hne : run.map SpokenWord.place ≠ [] := by
    rw [ne_eq, map_eq_nil_iff]
    exact h.ne_nil
  have hstart : ((run.map SpokenWord.place).head hne).1 = segment.originalScalarStart := by
    have hhead := h.start
    rw [List.head?_eq_some_head h.ne_nil, Option.map_some] at hhead
    rw [head_map]
    exact Option.some.inj hhead
  have hstop : wordStop ((run.map SpokenWord.place).getLast hne) = segment.originalScalarEnd := by
    have hlast := h.stop
    rw [List.getLast?_eq_some_getLast h.ne_nil, Option.map_some] at hlast
    rw [getLast_map]
    exact Option.some.inj hlast
  obtain ⟨hlt, hle⟩ := range_le hplaces hne
  have hfilter := filter_range hplaces hne
  have hagain := wordsFrom_range hplaces hne
  obtain ⟨hstarts, hstops⟩ := range_edges hplaces hne
  rw [hstart, hstop] at hlt hfilter hagain
  rw [hstop] at hle hstops
  rw [hstart] at hstarts
  refine ⟨turn, ⟨hturn, hgated, hindex, hlt, hle, hstarts, hstops⟩, ?_, ?_⟩
  · have hcovers : (spokenWords turns).filter segment.covers =
        (turnWords turn).filter fun word => decide (segment.originalScalarStart ≤ word.place.1) &&
          decide (wordStop word.place ≤ segment.originalScalarEnd) := by
      rw [← filter_spokenWords hindices hturn hgated, filter_filter]
      apply filter_congr
      intro word _
      unfold WindowSegment.covers
      rw [hindex, Bool.and_comm]
    have htagged : ∀ word ∈ run, word = ⟨turn.index, word.place⟩ := by
      intro word hword
      have := h.turn word hword
      cases word
      simp only [SpokenWord.mk.injEq, and_true]
      exact this.trans hindex.symm
    rw [hcovers]
    unfold turnWords
    rw [filter_map]
    change ((words isWordSeparator turn.text.toList).filter fun w =>
      decide (segment.originalScalarStart ≤ w.1) &&
        decide (wordStop w ≤ segment.originalScalarEnd)).map _ = run
    rw [hfilter, map_map]
    conv_rhs => rw [← map_id run]
    exact map_congr_left fun word hword => (htagged word hword).symm
  · unfold scalarSlice
    rw [if_neg (by omega), Option.map_some]
    unfold splitWords
    rw [← (wordsFrom_map_snd _).1 segment.originalScalarStart, hagain, map_map]
    rfl

/-! ## The windows of a transcript -/

/-- The spoken words that a window cites, segment by segment. -/
def Window.cited (turns : List WindowTurn) (window : Window) : List SpokenWord :=
  window.segments.flatMap fun segment => (spokenWords turns).filter segment.covers

/-- The words joined by one space. -/
def joined (block : List SpokenWord) : String :=
  String.ofList ([' '].intercalate (block.map fun word => word.place.2))

/-- What is cited by a window, and what it is read as, is the block of its place. -/
structure Stands (turns : List WindowTurn) (turn : Nat → Option String) (index : Nat)
    (window : Window) : Prop where
  windowIndex : window.windowIndex = index
  cited : window.cited turns = blockOf (spokenWords turns) index
  wordCount : window.wordCount = (window.cited turns).length
  text : windowText window turn = some (joined (window.cited turns))
  placed : ∀ segment ∈ window.segments, ∃ spoken, WellPlaced turns segment spoken

theorem segmentWords_pieces {turn : Nat → Option String}
    {pieces : List (WindowSegment × List SpokenWord)}
    (h : ∀ piece ∈ pieces, ∃ text, turn piece.1.sourceTurnIndex = some text ∧
      (scalarSlice text piece.1.originalScalarStart piece.1.originalScalarEnd).map splitWords =
        some (piece.2.map fun word => word.place.2)) :
    segmentWords turn (pieces.map Prod.fst) =
      some ((pieces.flatMap Prod.snd).map fun word => word.place.2) := by
  induction pieces with
  | nil => rfl
  | cons piece pieces ih =>
    rw [forall_mem_cons] at h
    obtain ⟨text, htext, hslice⟩ := h.1
    obtain ⟨slice, hslice, hsplit⟩ := Option.map_eq_some_iff.mp hslice
    rw [map_cons, segmentWords, htext, Option.bind_eq_bind, Option.bind_some, hslice,
      Option.bind_eq_bind, Option.bind_some, ih h.2, Option.bind_eq_bind, Option.bind_some, hsplit,
      flatMap_cons, map_append]
    rfl

theorem blockOf_within (spoken : List SpokenWord) (index : Nat) : blockOf spoken index <:+: spoken :=
  ( take_prefix _ _).isInfix.trans (drop_suffix _ _).isInfix

/-- The blocks of a text in order. -/
theorem flatMap_blockOf (spoken : List SpokenWord) (count : Nat) :
    (List.range count).flatMap (blockOf spoken) = spoken.take (windowWords * count) := by
  induction count with
  | zero => rfl
  | succ count ih =>
    rw [range_succ, flatMap_append, flatMap_singleton, ih, Nat.mul_succ,
      take_add]
    rfl

section Windows

variable {turns : List WindowTurn} {turn : Nat → Option String}

theorem stands_windowOf (hindices : (turns.map WindowTurn.index).Nodup)
    (hturn : ∀ t ∈ turns, t.gated = false → turn t.index = some t.text) (index : Nat) :
    Stands turns turn index (windowOf (spokenWords turns) index) := by
  obtain ⟨pieces, hsegments, hblock, hruns⟩ := cuts_segmentsOf (blockOf (spokenWords turns) index)
  have hwithin : ∀ piece ∈ pieces, piece.2 <:+: spokenWords turns := by
    intro piece hpiece
    refine List.IsInfix.trans ?_ (blockOf_within (spokenWords turns) index)
    rw [← hblock, flatMap_def]
    exact infix_of_mem_flatten (mem_map_of_mem hpiece)
  have hcites := fun piece hpiece => (hruns piece hpiece).cites hindices (hwithin piece hpiece)
  have hcited : (windowOf (spokenWords turns) index).cited turns =
      blockOf (spokenWords turns) index := by
    unfold Window.cited windowOf
    rw [← hsegments, ← hblock, flatMap_map]
    apply flatMap_congr
    intro piece hpiece
    obtain ⟨_, -, hfilter, -⟩ := hcites piece hpiece
    exact hfilter
  have hwords : segmentWords turn (windowOf (spokenWords turns) index).segments =
      some ((blockOf (spokenWords turns) index).map fun word => word.place.2) := by
    unfold windowOf
    rw [← hsegments, ← hblock]
    apply segmentWords_pieces
    intro piece hpiece
    obtain ⟨spoken, hplaced, -, hread⟩ := hcites piece hpiece
    exact ⟨spoken.text, hplaced.index ▸ hturn spoken hplaced.mem hplaced.gated, hread⟩
  refine ⟨rfl, hcited, by rw [hcited]; rfl, ?_, ?_⟩
  · unfold windowText
    rw [hwords, Option.bind_eq_bind, Option.bind_some, hcited, if_neg]
    · rfl
    · rw [length_map]
      exact fun hne => hne rfl
  · intro segment hsegment
    change segment ∈ segmentsOf (blockOf (spokenWords turns) index) at hsegment
    rw [← hsegments] at hsegment
    obtain ⟨piece, hpiece, rfl⟩ := mem_map.mp hsegment
    obtain ⟨spoken, hplaced, -⟩ := hcites piece hpiece
    exact ⟨spoken, hplaced⟩

/-- The windows of a transcript have its spoken words in order, each once, in full windows
with at most the last one shorter, and every window is read as its words. -/
theorem windows_partition (hindices : (turns.map WindowTurn.index).Nodup)
    (hturn : ∀ t ∈ turns, t.gated = false → turn t.index = some t.text) :
    (windows turns).flatMap (Window.cited turns) = spokenWords turns ∧
      ∀ index window, (windows turns)[index]? = some window →
        Stands turns turn index window ∧ 0 < window.wordCount ∧ window.wordCount ≤ windowWords ∧
          (index + 1 < (windows turns).length → window.wordCount = windowWords) := by
  have hstands := stands_windowOf hindices hturn
  rw [windows_eq]
  constructor
  · rw [List.flatMap_map]
    have hcited : ∀ index, (windowOf (spokenWords turns) index).cited turns =
      blockOf (spokenWords turns) index := fun index => (hstands index).cited
    simp only [hcited]
    rw [flatMap_blockOf, List.take_of_length_le]
    unfold windowWords
    omega
  · intro index window hwindow
    rw [List.getElem?_map] at hwindow
    obtain ⟨place, hplace, rfl⟩ := Option.map_eq_some_iff.mp hwindow
    obtain ⟨hlt, hplace⟩ := List.getElem?_eq_some_iff.mp hplace
    rw [List.getElem_range] at hplace
    rw [List.length_range] at hlt
    subst hplace
    have hcount : (windowOf (spokenWords turns) index).wordCount =
        min windowWords ((spokenWords turns).length - windowWords * index) := by
      unfold windowOf blockOf
      rw [List.length_take, List.length_drop]
    refine ⟨hstands index, ?_, ?_, fun hnext => ?_⟩
    · rw [hcount]
      unfold windowWords at hlt ⊢
      omega
    · rw [hcount]
      exact Nat.min_le_left _ _
    · rw [List.length_map, List.length_range] at hnext
      rw [hcount]
      unfold windowWords at hnext ⊢
      omega

end Windows

/-! A transcript with a turn that is withheld. -/

def sampleWindowTurns : List WindowTurn :=
  [⟨0, "so  we", false⟩, ⟨1, "never", true⟩, ⟨2, " agreed", false⟩]

/-- What the resolver of the index finds. -/
def sampleWindowTurn (index : Nat) : Option String :=
  (sampleWindowTurns.find? fun turn => turn.index == index).map WindowTurn.text

theorem windows_partition_sample :
    (windows sampleWindowTurns).flatMap (Window.cited sampleWindowTurns) =
        spokenWords sampleWindowTurns ∧
      ∃ window, (windows sampleWindowTurns)[0]? = some window ∧
        Stands sampleWindowTurns sampleWindowTurn 0 window := by
  have hwindows := @windows_partition sampleWindowTurns sampleWindowTurn (by decide) (by decide)
  have hfirst : ((windows sampleWindowTurns)[0]?).isSome := by decide
  obtain ⟨window, hwindow⟩ := Option.isSome_iff_exists.mp hfirst
  exact ⟨hwindows.1, window, hwindow, (hwindows.2 0 window hwindow).1⟩

end YawnApp.SessionCore.CorpusWindow
