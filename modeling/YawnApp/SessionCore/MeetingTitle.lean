import Mathlib.Data.List.TakeWhile
import YawnApp.SessionCore.Operations

set_option autoImplicit false

/-!
# Derived titles (`meeting_title.rs`)

A meeting without a title of its own is named by the first thing said in it that is long
enough: the opening sentence of a turn, with its white space collapsed, cut to a reading
width and without its full stop.
-/

namespace YawnApp.SessionCore

namespace MeetingTitle

open List

def minTitleWords : Nat := 6

def maxTitleScalars : Nat := 120

/-! ## The functions -/

/-- `first_sentence`: up to the first terminator that white space or the end follows. -/
def firstSentence : List Char → List Char
  | [] => []
  | c :: rest =>
    if (c == '.' || c == '?' || c == '!') && rest.head?.all isWhitespace then [c]
    else c :: firstSentence rest

/-- The body of the loop of `collapse`: what was written, and whether a space is due. -/
def collapseStep (state : List Char × Bool) (c : Char) : List Char × Bool :=
  if isWhitespace c then (state.1, !state.1.isEmpty)
  else if isControl c then state
  else (state.1 ++ (if state.2 then [' ', c] else [c]), false)

/-- `collapse` -/
def collapse (text : List Char) : List Char := (text.foldl collapseStep ([], false)).1

/-- `str::rfind` of a space, from a byte offset on. -/
def rfindSpaceFrom : Nat → List Char → Option Nat
  | _, [] => none
  | offset, c :: rest =>
    (rfindSpaceFrom (offset + c.utf8Size) rest).or (if c = ' ' then some offset else none)

/-- `text[..index]`, at the boundary of a character. -/
def sliceTo : Nat → List Char → List Char
  | _, [] => []
  | index, c :: rest =>
    if c.utf8Size ≤ index then c :: sliceTo (index - c.utf8Size) rest else []

/-- `truncate_at_word_boundary` -/
def truncateAtWordBoundary (text : List Char) (max : Nat) : List Char :=
  if text.length ≤ max then text
  else
    let cut := text.take max
    match rfindSpaceFrom 0 cut with
    | some index => if index > 0 then sliceTo index cut else cut
    | none => cut

/-- `trim_end_matches` -/
def trimEndMatches (matched : Char → Bool) (text : List Char) : List Char :=
  (text.reverse.dropWhile matched).reverse

/-- The words that `opening_label` counts. -/
def wordCount (collapsed : List Char) : Nat :=
  ((collapsed.splitOnP fun c => c == ' ').filter fun word => !word.isEmpty).length

/-- `opening_label` -/
def openingLabel (text : List Char) : Option (List Char) :=
  let collapsed := collapse (firstSentence text)
  if wordCount collapsed < minTitleWords then none
  else
    let bounded := truncateAtWordBoundary collapsed maxTitleScalars
    let trimmed := trimEndMatches isWhitespace (trimEndMatches (fun c => c == '.') bounded)
    if trimmed.isEmpty then none else some trimmed

/-- `derived_title`, of the turns in order and whether each is gated. -/
def derivedTitle (turns : List (String × Bool)) : Option String :=
  (turns.filter fun turn => !turn.2).findSome? fun turn =>
    (openingLabel turn.1.toList).map String.ofList

/-! ## The opening sentence -/

/-- A sentence ends where the turn does or before white space. -/
theorem exists_firstSentence (text : List Char) :
    ∃ rest, text = firstSentence text ++ rest ∧
      (rest = [] ∨ ∃ front stop space after, firstSentence text = front ++ [stop] ∧
        (stop = '.' ∨ stop = '?' ∨ stop = '!') ∧ rest = space :: after ∧ isWhitespace space = true) := by
  induction text with
  | nil => exact ⟨[], rfl, .inl rfl⟩
  | cons c text ih =>
    rw [firstSentence]
    split
    · rename_i hstop
      rw [Bool.and_eq_true, Bool.or_eq_true, Bool.or_eq_true, beq_iff_eq, beq_iff_eq, beq_iff_eq,
        or_assoc] at hstop
      refine ⟨text, rfl, ?_⟩
      cases text with
      | nil => exact .inl rfl
      | cons space after => exact .inr ⟨[], c, space, after, rfl, hstop.1, rfl, hstop.2⟩
    · obtain ⟨rest, htext, hrest⟩ := ih
      refine ⟨rest, congrArg (c :: ·) htext, ?_⟩
      rcases hrest with hrest | ⟨front, stop, space, after, hfront, hstop, hrest, hspace⟩
      · exact .inl hrest
      · exact .inr ⟨c :: front, stop, space, after, congrArg (c :: ·) hfront, hstop, hrest, hspace⟩

/-! ## Collapsing -/

/-- A character that is written as it stands. -/
def isVisible (c : Char) : Bool := !isWhitespace c && !isControl c

/-- Two spaces do not stand side by side. -/
def NotSpaces (a b : Char) : Prop := ¬ (a = ' ' ∧ b = ' ')

/-- Visible characters with single spaces between them. -/
structure Clean (text : List Char) : Prop where
  visible : ∀ c ∈ text, c = ' ' ∨ isVisible c = true
  single : text.IsChain NotSpaces
  first : text.head? ≠ some ' '
  last : text.getLast? ≠ some ' '

theorem ne_space_of_isVisible {c : Char} (h : isVisible c = true) : c ≠ ' ' := by
  rintro rfl
  exact absurd h (by decide)

theorem clean_nil : Clean [] := ⟨by simp, .nil, by simp, by simp⟩

variable {text : List Char}

/-- A visible character may follow what is clean, with or without a space. -/
theorem Clean.concat {c : Char} (h : Clean text) (hc : isVisible c = true) :
    Clean (text ++ [c]) := by
  have hne := ne_space_of_isVisible hc
  refine ⟨?_, ?_, ?_, by simpa using hne⟩
  · intro d hd
    rcases mem_append.mp hd with hd | hd
    · exact h.visible d hd
    · rw [mem_singleton.mp hd]
      exact .inr hc
  · refine isChain_append.mpr ⟨h.single, .singleton _, ?_⟩
    intro a _ b hb
    cases hb
    exact fun hspaces => hne hspaces.2
  · cases text with
    | nil => simpa using hne
    | cons => exact h.first

theorem Clean.concat_space {c : Char} (h : Clean text) (hne : text ≠ []) (hc : isVisible c = true) :
    Clean (text ++ [' ', c]) := by
  have hspace := ne_space_of_isVisible hc
  refine ⟨?_, ?_, ?_, by simpa using hspace⟩
  · intro d hd
    simp only [mem_append, mem_cons, not_mem_nil, or_false] at hd
    rcases hd with hd | rfl | rfl
    · exact h.visible d hd
    · exact .inl rfl
    · exact .inr hc
  · refine isChain_append.mpr ⟨h.single, ?_, ?_⟩
    · exact isChain_cons_cons.mpr ⟨fun hspaces => hspace hspaces.2, .singleton _⟩
    · intro a ha b hb hspaces
      rw [hspaces.1] at ha
      exact h.last ha
  · rw [List.head?_append_of_ne_nil _ hne]
    exact h.first

/-- What the loop of `collapse` keeps: a space is due only after something. -/
structure Collapsing (state : List Char × Bool) : Prop where
  clean : Clean state.1
  due : state.2 = true → state.1 ≠ []

theorem Collapsing.step {state : List Char × Bool} (h : Collapsing state) (c : Char) :
    Collapsing (collapseStep state c) := by
  unfold collapseStep
  split
  · exact ⟨h.clean, fun hdue => by simpa using hdue⟩
  · rename_i hspace
    split
    · exact h
    · rename_i hcontrol
      have hvisible : isVisible c = true := by simp [isVisible, hspace, hcontrol]
      cases hdue : state.2 with
      | true => exact ⟨h.clean.concat_space (h.due hdue) hvisible, fun h => by simp at h⟩
      | false => exact ⟨h.clean.concat hvisible, fun h => by simp at h⟩

theorem Collapsing.foldl {state : List Char × Bool} (h : Collapsing state) (text : List Char) :
    Collapsing (text.foldl collapseStep state) := by
  induction text generalizing state with
  | nil => exact h
  | cons c text ih => exact ih (h.step c)

theorem collapsing_foldl (text : List Char) : Collapsing (text.foldl collapseStep ([], false)) :=
  Collapsing.foldl ⟨clean_nil, fun h => by simp at h⟩ text

theorem clean_collapse (text : List Char) : Clean (collapse text) := (collapsing_foldl text).clean

/-- What is written is not taken back, and where a space is due it comes first. -/
theorem Collapsing.exists_more (text : List Char) :
    ∀ {state : List Char × Bool}, Collapsing state → ∃ more,
      (text.foldl collapseStep state).1 = state.1 ++ more ∧
        (state.2 = true → more = [] ∨ more.head? = some ' ') := by
  induction text with
  | nil => exact fun _ => ⟨[], by simp, fun _ => .inl rfl⟩
  | cons c text ih =>
    intro state h
    obtain ⟨more, hmore, hdue⟩ := ih (h.step c)
    rw [foldl_cons, hmore]
    unfold collapseStep at hdue ⊢
    split
    · rename_i hspace
      rw [if_pos hspace] at hdue
      exact ⟨more, rfl, fun hstate => hdue (by simpa using h.due hstate)⟩
    · rename_i hspace
      rw [if_neg hspace] at hdue
      split
      · rename_i hcontrol
        rw [if_pos hcontrol] at hdue
        exact ⟨more, rfl, hdue⟩
      · refine ⟨(if state.2 then [' ', c] else [c]) ++ more, append_assoc _ _ _, fun hstate => ?_⟩
        rw [hstate]
        exact .inr rfl

/-- A visible character is written last and no space is due after it. -/
theorem foldl_concat_visible {front : List Char} {c : Char} (hc : isVisible c = true) :
    ∃ written, (front ++ [c]).foldl collapseStep ([], false) = (written ++ [c], false) := by
  rw [isVisible, Bool.and_eq_true, Bool.not_eq_true', Bool.not_eq_true'] at hc
  rw [foldl_append, foldl_cons, foldl_nil]
  generalize front.foldl collapseStep ([], false) = state
  unfold collapseStep
  rw [hc.1, hc.2, if_neg Bool.false_ne_true, if_neg Bool.false_ne_true]
  cases state.2 with
  | true => exact ⟨state.1 ++ [' '], by simp⟩
  | false => exact ⟨state.1, rfl⟩

theorem isVisible_of_stop {c : Char} (h : c = '.' ∨ c = '?' ∨ c = '!') : isVisible c = true := by
  rcases h with rfl | rfl | rfl <;> decide

/-- Nothing or a space follows. -/
def Bounded (rest : List Char) : Prop := rest = [] ∨ rest.head? = some ' '

/-- The collapsed turn is the collapsed opening sentence and what follows its last word. -/
theorem exists_collapse_firstSentence (text : List Char) :
    ∃ rest, collapse text = collapse (firstSentence text) ++ rest ∧ Bounded rest := by
  obtain ⟨rest, htext, hrest⟩ := exists_firstSentence text
  rcases hrest with rfl | ⟨front, stop, space, after, hfront, hstop, rfl, hspace⟩
  · refine ⟨[], ?_, .inl rfl⟩
    rw [append_nil] at htext ⊢
    rw [← htext]
  · obtain ⟨written, hwritten⟩ := @foldl_concat_visible front stop (isVisible_of_stop hstop)
    have hstate := collapsing_foldl (firstSentence text ++ [space])
    have hdue : (firstSentence text ++ [space]).foldl collapseStep ([], false) =
        (written ++ [stop], true) := by
      rw [foldl_append, hfront, hwritten, foldl_cons, foldl_nil, collapseStep,
        if_pos hspace]
      simp
    obtain ⟨more, hmore, hbounded⟩ := hstate.exists_more after
    rw [hdue] at hmore hbounded
    refine ⟨more, ?_, hbounded rfl⟩
    calc collapse text = ((firstSentence text ++ [space] ++ after).foldl collapseStep ([], false)).1 := by
          rw [append_assoc, singleton_append, ← htext, collapse]
      _ = written ++ [stop] ++ more := by rw [foldl_append, hdue, hmore]
      _ = collapse (firstSentence text) ++ more := by rw [collapse, hfront, hwritten]

/-! ## Cutting -/

def byteLength (text : List Char) : Nat := (text.map Char.utf8Size).sum

theorem sliceTo_append (front rest : List Char) :
    sliceTo (byteLength front) (front ++ rest) = front := by
  induction front with
  | nil =>
    cases rest with
    | nil => rfl
    | cons c => simp [byteLength, sliceTo, Nat.not_le.mpr (Char.utf8Size_pos c)]
  | cons c front ih =>
    have hlength : byteLength (c :: front) = c.utf8Size + byteLength front := rfl
    rw [cons_append, sliceTo, hlength, if_pos (Nat.le_add_right _ _), Nat.add_sub_cancel_left, ih]

/-- The last space is found at the bytes before it, and there is none after. -/
theorem rfindSpaceFrom_eq_some : ∀ {offset index : Nat}, rfindSpaceFrom offset text = some index →
      ∃ front after, text = front ++ ' ' :: after ∧ index = offset + byteLength front := by
  induction text with
  | nil => exact fun h => by cases h
  | cons c text ih =>
    intro offset index h
    rw [rfindSpaceFrom, Option.or_eq_some_iff] at h
    rcases h with h | ⟨-, h⟩
    · obtain ⟨front, after, rfl, rfl⟩ := ih h
      refine ⟨c :: front, after, rfl, ?_⟩
      rw [Nat.add_assoc]
      rfl
    · split at h
      · rename_i hc
        cases h
        exact ⟨[], text, by rw [hc, nil_append], rfl⟩
      · cases h

theorem rfindSpaceFrom_eq_none :
    ∀ {offset : Nat}, rfindSpaceFrom offset text = none → ' ' ∉ text := by
  induction text with
  | nil => exact fun _ => not_mem_nil
  | cons c text ih =>
    intro offset h
    rw [rfindSpaceFrom, Option.or_eq_none_iff] at h
    rw [mem_cons, not_or]
    refine ⟨?_, ih h.1⟩
    rintro rfl
    simp at h

/-- The first word of a text is longer than the limit. -/
def LongWord (max : Nat) (text : List Char) : Prop :=
  max < (text.takeWhile fun c => c != ' ').length

/-- What the cut leaves is within the limit and ends before a space or the end, unless the
first word is too long by itself. -/
theorem exists_truncateAtWordBoundary (hclean : Clean text) (max : Nat) :
    ∃ rest, text = truncateAtWordBoundary text max ++ rest ∧
      (truncateAtWordBoundary text max).length ≤ max ∧ (Bounded rest ∨ LongWord max text) := by
  unfold truncateAtWordBoundary
  split
  · rename_i hshort
    exact ⟨[], by simp, hshort, .inl (.inl rfl)⟩
  · rename_i hlong
    have hcut : text = text.take max ++ text.drop max := (take_append_drop max text).symm
    have hlength : (text.take max).length = max := by
      rw [length_take]
      omega
    have hwhole : ' ' ∉ text.take max → ∃ rest, text = text.take max ++ rest ∧
        (text.take max).length ≤ max ∧ (Bounded rest ∨ LongWord max text) := by
      intro hnone
      refine ⟨text.drop max, hcut, Nat.le_of_eq hlength, ?_⟩
      cases hdrop : text.drop max with
      | nil => exact .inl (.inl rfl)
      | cons c =>
        by_cases hc : c = ' '
        · exact .inl (.inr (by rw [hc]; rfl))
        · right
          have hwords : ∀ d ∈ text.take max, (d != ' ') = true := by
            intro d hd
            rw [bne_iff_ne]
            rintro rfl
            exact hnone hd
          rw [LongWord, hcut, hdrop, takeWhile_append_of_pos hwords, length_append, hlength]
          rw [takeWhile_cons_of_pos (by simpa using hc), length_cons]
          omega
    dsimp only
    cases hfind : rfindSpaceFrom 0 (text.take max) with
    | none => exact hwhole (rfindSpaceFrom_eq_none hfind)
    | some index =>
      obtain ⟨front, after, hsplit, hindex⟩ := rfindSpaceFrom_eq_some hfind
      rw [Nat.zero_add] at hindex
      dsimp only
      by_cases hzero : index > 0
      · rw [if_pos hzero, hindex, hsplit, sliceTo_append]
        refine ⟨' ' :: after ++ text.drop max, ?_, ?_, .inl (.inr rfl)⟩
        · rw [← append_assoc, ← hsplit, ← hcut]
        · rw [hsplit, length_append] at hlength
          omega
      · -- nothing clean begins with a space
        have hfront : front = [] := by
          cases front with
          | nil => rfl
          | cons c front =>
            have := Char.utf8Size_pos c
            have hbytes : byteLength (c :: front) = c.utf8Size + byteLength front := rfl
            omega
        exfalso
        rw [hfront, nil_append] at hsplit
        apply hclean.first
        rw [hcut, hsplit]
        rfl

/-! ## Trimming -/

theorem exists_trimEndMatches (matched : Char → Bool) (text : List Char) :
    ∃ tail, text = trimEndMatches matched text ++ tail ∧ (∀ c ∈ tail, matched c = true) ∧
      ∀ c ∈ (trimEndMatches matched text).getLast?, matched c = false := by
  refine ⟨(text.reverse.takeWhile matched).reverse, ?_, ?_, ?_⟩
  · rw [trimEndMatches, ← reverse_append, takeWhile_append_dropWhile, reverse_reverse]
  · intro c hc
    exact all_eq_true.mp all_takeWhile c (mem_reverse.mp hc)
  · intro c hc
    rw [trimEndMatches, List.getLast?_reverse] at hc
    have hnot := List.head?_dropWhile_not matched text.reverse
    rw [Option.mem_def.mp hc] at hnot
    exact hnot

/-- The first characters of clean text are clean, but for a space at the end. -/
theorem Clean.of_append {front rest : List Char} (h : Clean (front ++ rest))
    (hlast : front.getLast? ≠ some ' ') : Clean front where
  visible := fun c hc => h.visible c (mem_append_left _ hc)
  single := (isChain_append.mp h.single).1
  first := by
    have hfirst := h.first
    cases front with
    | nil => simp
    | cons => exact hfirst
  last := hlast

/-- What the title is cut from: the collapsed opening sentence up to the limit. -/
def opening (text : List Char) : List Char :=
  truncateAtWordBoundary (collapse (firstSentence text)) maxTitleScalars

/-- A title ends before a space or the end of the turn, or before the full stops there. -/
def EndsAtWord (turn title : List Char) : Prop :=
  ∃ stops rest, turn = title ++ stops ++ rest ∧ (∀ c ∈ stops, c = '.') ∧ Bounded rest

/-- A title quotes a turn. -/
structure Quotes (text title : List Char) : Prop where
  quoted : title <+: collapse text
  nonempty : title ≠ []
  short : title.length ≤ maxTitleScalars
  plain : ∀ c ∈ title, isControl c = false ∧ (isWhitespace c = true → c = ' ')
  single : title.IsChain NotSpaces
  first : title.head? ≠ some ' '
  last : title.getLast? ≠ some ' '
  ends : EndsAtWord (collapse text) title ∨ LongWord maxTitleScalars (collapse text)

/-- What is left of the opening, a space that may be last in it, and the full stops. -/
theorem exists_trimmed (bounded : List Char) :
    ∃ spaces stops, bounded =
        trimEndMatches isWhitespace (trimEndMatches (fun c => c == '.') bounded) ++ spaces ++ stops ∧
      (∀ c ∈ spaces, isWhitespace c = true) ∧ ∀ c ∈ stops, c = '.' := by
  obtain ⟨stops, hstops, hdots, -⟩ := exists_trimEndMatches (fun c => c == '.') bounded
  obtain ⟨spaces, hspaces, hwhite, -⟩ :=
    exists_trimEndMatches isWhitespace (trimEndMatches (fun c => c == '.') bounded)
  exact ⟨spaces, stops, by rw [← hspaces, ← hstops], hwhite, fun c hc => eq_of_beq (hdots c hc)⟩

theorem Clean.of_whitespace (h : Clean text) {c : Char} (hc : c ∈ text)
    (hwhite : isWhitespace c = true) : c = ' ' := by
  rcases h.visible c hc with heq | hvisible
  · exact heq
  · simp [isVisible, hwhite] at hvisible

theorem LongWord.append {max : Nat} (h : LongWord max text) (rest : List Char) :
    LongWord max (text ++ rest) := by
  rw [LongWord, takeWhile_append] at *
  split
  · rename_i hall
    rw [length_append]
    omega
  · exact h

/-- What is trimmed from the opening of a turn quotes the turn. -/
theorem quotes_of_trimmed {title : List Char} (hne : title ≠ []) (htitle : title =
      trimEndMatches isWhitespace (trimEndMatches (fun c => c == '.') (opening text))) :
    Quotes text title := by
  have hclean := clean_collapse (firstSentence text)
  obtain ⟨after, hafter, hbounded⟩ := exists_collapse_firstSentence text
  obtain ⟨rest, hrest, hshort, hends⟩ := exists_truncateAtWordBoundary hclean maxTitleScalars
  obtain ⟨spaces, stops, htrimmed, hspaces, hstops⟩ := exists_trimmed (opening text)
  rw [← htitle] at htrimmed
  rw [← opening] at hrest hshort
  have hopening : collapse (firstSentence text) = title ++ (spaces ++ stops ++ rest) := by
    rw [hrest, htrimmed]
    simp only [append_assoc]
  have hturn : collapse text = title ++ spaces ++ stops ++ (rest ++ after) := by
    rw [hafter, hopening]
    simp only [append_assoc]
  have hlast : title.getLast? ≠ some ' ' := by
    intro hspace
    obtain ⟨-, -, -, hnot⟩ :=
      exists_trimEndMatches isWhitespace (trimEndMatches (fun c => c == '.') (opening text))
    rw [← htitle] at hnot
    exact absurd (hnot ' ' hspace) (by decide)
  have htitleClean : Clean title := (hopening ▸ hclean).of_append hlast
  have hquoted : title <+: collapse text :=
    ⟨spaces ++ stops ++ (rest ++ after), by rw [hturn]; simp only [append_assoc]⟩
  refine ⟨hquoted, hne, ?_, ?_, htitleClean.single, htitleClean.first, hlast, ?_⟩
  · rw [htrimmed, append_assoc, length_append] at hshort
    omega
  · intro c hc
    refine ⟨?_, htitleClean.of_whitespace hc⟩
    rcases htitleClean.visible c hc with rfl | hvisible
    · decide
    · rw [isVisible, Bool.and_eq_true, Bool.not_eq_true', Bool.not_eq_true'] at hvisible
      exact hvisible.2
  · rcases hends with hends | hlong
    · left
      cases spaces with
      | nil =>
        rw [append_nil] at hturn
        refine ⟨stops, rest ++ after, hturn, hstops, ?_⟩
        rcases hends with rfl | hspace
        · exact hbounded
        · right
          cases rest with
          | nil => cases hspace
          | cons => exact hspace
      | cons space spaces =>
        have hmem : space ∈ collapse (firstSentence text) := by
          rw [hopening]
          simp
        have hspace := hclean.of_whitespace hmem (hspaces space mem_cons_self)
        refine ⟨[], space :: spaces ++ stops ++ (rest ++ after), ?_, by simp, .inr ?_⟩
        · rw [hturn, append_nil]
          simp only [append_assoc]
        · rw [hspace]
          rfl
    · exact .inr (hafter ▸ hlong.append after)

/-! ## The turn that names a meeting -/

/-- A turn is passed over when its opening is too short or nothing but full stops. -/
structure NamesMeeting (turn : String × Bool) : Prop where
  ungated : turn.2 = false
  words : minTitleWords ≤ wordCount (collapse (firstSentence turn.1.toList))
  spoken : ∃ c ∈ opening turn.1.toList, c ≠ '.'

theorem trimmed_eq_nil_iff (text : List Char) :
    trimEndMatches isWhitespace (trimEndMatches (fun c => c == '.') (opening text)) = [] ↔
      ∀ c ∈ opening text, c = '.' := by
  obtain ⟨rest, hrest, -, -⟩ :=
    exists_truncateAtWordBoundary (clean_collapse (firstSentence text)) maxTitleScalars
  rw [← opening] at hrest
  have hclean := clean_collapse (firstSentence text)
  constructor
  · intro hnil
    obtain ⟨spaces, stops, htrimmed, hspaces, hstops⟩ := exists_trimmed (opening text)
    rw [hnil, nil_append] at htrimmed
    cases spaces with
    | nil =>
      rw [htrimmed]
      exact hstops
    | cons space =>
      -- clean text does not begin with white space
      exfalso
      rw [hrest, htrimmed] at hclean
      have hspace := hclean.of_whitespace (c := space) (by simp) (hspaces space mem_cons_self)
      exact hclean.first (by rw [hspace]; rfl)
  · intro hall
    have hdots : trimEndMatches (fun c => c == '.') (opening text) = [] := by
      rw [trimEndMatches, reverse_eq_nil_iff, dropWhile_eq_nil_iff]
      intro c hc
      exact beq_iff_eq.mpr (hall c (mem_reverse.mp hc))
    rw [hdots]
    rfl

/-- A turn is given a label exactly when it names the meeting, and the label quotes it. -/
theorem openingLabel_spec (text : String) :
    (openingLabel text.toList = none ∧ ¬ NamesMeeting (text, false)) ∨
      ∃ title, openingLabel text.toList = some title ∧ NamesMeeting (text, false) ∧
        Quotes text.toList title := by
  unfold openingLabel
  dsimp only
  by_cases hwords : wordCount (collapse (firstSentence text.toList)) < minTitleWords
  · rw [if_pos hwords]
    exact .inl ⟨rfl, fun h => absurd hwords (Nat.not_lt.mpr h.words)⟩
  · rw [if_neg hwords, ← opening]
    by_cases hnil : trimEndMatches isWhitespace
        (trimEndMatches (fun c => c == '.') (opening text.toList)) = []
    · rw [hnil, isEmpty_nil, if_pos rfl]
      refine .inl ⟨rfl, fun h => ?_⟩
      obtain ⟨c, hc, hne⟩ := h.spoken
      exact hne ((trimmed_eq_nil_iff _).mp hnil c hc)
    · rw [if_neg (by simpa using hnil)]
      refine .inr ⟨_, rfl, ⟨rfl, Nat.not_lt.mp hwords, ?_⟩, quotes_of_trimmed hnil rfl⟩
      by_contra hnone
      refine hnil ((trimmed_eq_nil_iff _).mpr fun c hc => ?_)
      by_contra hne
      exact hnone ⟨c, hc, hne⟩

theorem derivedTitle_cons (turn : String × Bool) (rest : List (String × Bool)) :
    derivedTitle (turn :: rest) =
      if turn.2 then derivedTitle rest
      else ((openingLabel turn.1.toList).map String.ofList).or (derivedTitle rest) := by
  unfold derivedTitle
  cases hgated : turn.2 with
  | true => simp [hgated]
  | false =>
    rw [filter_cons_of_pos (by simp [hgated]), List.findSome?_cons, if_neg Bool.false_ne_true]
    cases (openingLabel turn.1.toList).map String.ofList <;> rfl

/-- The title of a meeting is that of the first turn that names it. -/
theorem derivedTitle_spec (turns : List (String × Bool)) :
    (derivedTitle turns = none ∧ ∀ turn ∈ turns, ¬ NamesMeeting turn) ∨
      ∃ before text after title, turns = before ++ (text, false) :: after ∧
        derivedTitle turns = some title ∧ (∀ turn ∈ before, ¬ NamesMeeting turn) ∧
        NamesMeeting (text, false) ∧ Quotes text.toList title.toList := by
  induction turns with
  | nil => exact .inl ⟨rfl, by simp⟩
  | cons turn rest ih =>
    obtain ⟨text, gated⟩ := turn
    rw [derivedTitle_cons]
    have hskip : ∀ {value : Option String}, value = derivedTitle rest →
        ¬ NamesMeeting (text, gated) →
        (value = none ∧ ∀ turn ∈ (text, gated) :: rest, ¬ NamesMeeting turn) ∨
          ∃ before other after title, (text, gated) :: rest = before ++ (other, false) :: after ∧
            value = some title ∧ (∀ turn ∈ before, ¬ NamesMeeting turn) ∧
            NamesMeeting (other, false) ∧ Quotes other.toList title.toList := by
      rintro _ rfl hnot
      rcases ih with ⟨hnone, hrest⟩ | ⟨before, other, after, title, hsplit, htitle, hbefore, hother, hquotes⟩
      · exact .inl ⟨hnone, forall_mem_cons.mpr ⟨hnot, hrest⟩⟩
      · refine .inr ⟨(text, gated) :: before, other, after, title, by rw [hsplit]; rfl, htitle, ?_, hother, hquotes⟩
        exact forall_mem_cons.mpr ⟨hnot, hbefore⟩
    cases gated with
    | true => exact hskip rfl fun h => by cases h.ungated
    | false =>
      rcases openingLabel_spec text with ⟨hnone, hnot⟩ | ⟨title, htitle, hnames, hquotes⟩
      · exact hskip (by rw [hnone]; rfl) hnot
      · refine .inr ⟨[], text, rest, String.ofList title, rfl, ?_, by simp, hnames, ?_⟩
        · rw [htitle]
          rfl
        · rwa [String.toList_ofList]

/-- A derived title quotes the first turn that names the meeting, and no gated turn counts. -/
theorem derivedTitle_quotes (turns : List (String × Bool)) :
    (∀ title, derivedTitle turns = some title →
      ∃ before text after, turns = before ++ (text, false) :: after ∧
        (∀ turn ∈ before, ¬ NamesMeeting turn) ∧ NamesMeeting (text, false) ∧
        Quotes text.toList title.toList) ∧
      (derivedTitle turns = none → ∀ turn ∈ turns, ¬ NamesMeeting turn) ∧
      ∀ others : List (String × Bool),
        (others.filter fun turn => !turn.2) = (turns.filter fun turn => !turn.2) →
          derivedTitle others = derivedTitle turns := by
  refine ⟨?_, ?_, fun others hothers => ?_⟩
  · intro title htitle
    rcases derivedTitle_spec turns with ⟨hnone, -⟩ |
      ⟨before, text, after, found, hsplit, hfound, hbefore, hnames, hquotes⟩
    · rw [hnone] at htitle
      cases htitle
    · rw [hfound] at htitle
      cases htitle
      exact ⟨before, text, after, hsplit, hbefore, hnames, hquotes⟩
  · intro hnone
    rcases derivedTitle_spec turns with ⟨-, hall⟩ | ⟨_, _, _, _, _, hfound, _⟩
    · exact hall
    · rw [hnone] at hfound
      cases hfound
  · rw [derivedTitle, derivedTitle, hothers]

def planTurn : List Char := "we need to talk about the plan".toList

theorem derivedTitle_quotes_planTurn :
    ∃ before text after, [(String.ofList planTurn, false)] = before ++ (text, false) :: after ∧
      (∀ turn ∈ before, ¬ NamesMeeting turn) ∧ NamesMeeting (text, false) ∧
      Quotes text.toList (String.ofList planTurn).toList := by
  have hplan : openingLabel planTurn = some planTurn := by decide +kernel
  have htitle : derivedTitle [(String.ofList planTurn, false)] = some (String.ofList planTurn) := by
    rw [derivedTitle_cons, String.toList_ofList, hplan]
    rfl
  exact (derivedTitle_quotes [(String.ofList planTurn, false)]).1 _ htitle

/-! ## A turn that begins with full stops -/

/-- Full stops longer than the limit, and words behind them. -/
def stopsTurn : List Char := List.replicate 130 '.' ++ "x b c d e f".toList

/-- A turn is passed over although its opening sentence has the words. -/
theorem derivedTitle_passes_stops :
    minTitleWords ≤ wordCount (collapse (firstSentence (String.ofList stopsTurn).toList)) ∧
      derivedTitle [(String.ofList stopsTurn, false), (String.ofList planTurn, false)] =
        some (String.ofList planTurn) := by
  have hstops : openingLabel stopsTurn = none := by decide +kernel
  have hplan : openingLabel planTurn = some planTurn := by decide +kernel
  rw [String.toList_ofList, derivedTitle_cons, derivedTitle_cons, String.toList_ofList,
    String.toList_ofList, hstops, hplan]
  exact ⟨by decide +kernel, rfl⟩

end MeetingTitle

end YawnApp.SessionCore
