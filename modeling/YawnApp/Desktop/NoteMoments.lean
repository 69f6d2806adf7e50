import YawnApp.Desktop.NoteLedger
import YawnApp.Foundation.CommonLines

set_option autoImplicit false

/-!
# The moments of a note while it is typed (`view-model.mjs`)

The text is all that is known of an edit.  Lines of the old and the new text are aligned by a
longest common subsequence, an unmatched line takes the moment of the old line at its place, and
a line that was not there before gets the clock.
-/

namespace YawnApp.Desktop

open YawnApp.Foundation CommonLines List

namespace NoteMoments

open NoteLedger

/-- `noteMomentSeconds` of a snapshot's capture and start. -/
def noteMomentSeconds (capture : Option String) (startedAt nowEpochSeconds : Number) : Number :=
  if capture = some "recording" ∨ capture = some "paused" then
    match startedAt, nowEpochSeconds with
    | some startedAt, some now => some (max 0 (⌊now - startedAt⌋ : ℚ))
    | _, _ => none
  else none

/-- `line.trim() === ""` -/
def isBlank (line : String) : Bool := line.toList.all isTrimmed

/-- A moment of `alignNoteMoments`. -/
structure LineMoment where
  line : Nat
  seconds : ℚ
deriving DecidableEq

def alignmentBudget : Nat := 250000

/-- `match` and its pairs. -/
def matchLines (prev next : List String) : List (Nat × Nat) :=
  if prev.length * next.length ≤ alignmentBudget then alignment prev next
  else diagonal 0 0 (min prev.length next.length)

def matchOf (pairs : List (Nat × Nat)) (line : Nat) : Option Nat :=
  (pairs.find? fun pair => pair.1 = line).map Prod.snd

/-- The clock that is a count of seconds. -/
def clockOf (nowSeconds : Number) : Option ℚ :=
  nowSeconds.filter fun seconds => isInteger seconds && decide (0 ≤ seconds)

/-- The round of the loop over the lines of the new text. -/
def secondsOf (prev next : List String) (had : Nat → Option ℚ) (pairs : List (Nat × Nat))
    (clock : Option ℚ) (line : Nat) : Option ℚ :=
  match matchOf pairs line with
  | some previous => had previous
  | none =>
    if line < prev.length ∧ line ∉ pairs.map Prod.snd then
      match had line with
      | some seconds => some seconds
      | none => if isBlank (prev.getD line "") && !isBlank (next.getD line "") then clock else none
    else if isBlank (next.getD line "") then none else clock

/-- `alignNoteMoments` -/
def alignNoteMoments (previousText : String) (previousMoments : List Moment) (nextText : String)
    (nowSeconds : Number) : List LineMoment :=
  let prev := noteLines previousText
  let next := noteLines nextText
  let had := momentsByLine prev.length previousMoments
  let pairs := matchLines prev next
  (List.range next.length).filterMap fun line =>
    ((secondsOf prev next had pairs (clockOf nowSeconds) line).filter isInteger).map fun seconds =>
      ⟨line, seconds⟩

/-! ## Lines and their places -/

theorem matchOf_diagonal (count : Nat) : ∀ i j line : Nat,
    matchOf (diagonal i j count) line =
      if j ≤ line ∧ line < j + count then some (i + (line - j)) else none := by
  induction count with
  | zero =>
    intro i j line
    rw [if_neg (by omega)]
    rfl
  | succ count ih =>
    intro i j line
    rw [diagonal_succ, matchOf, List.find?_cons]
    by_cases hhere : j = line
    · subst hhere
      rw [decide_eq_true rfl, if_pos (by omega), Nat.sub_self]
      rfl
    · rw [decide_eq_false hhere]
      refine (ih (i + 1) (j + 1) line).trans ?_
      by_cases hlater : j + 1 ≤ line ∧ line < j + 1 + count
      · rw [if_pos hlater, if_pos (by omega)]
        exact congrArg some (by omega)
      · rw [if_neg hlater, if_neg (by omega)]

theorem matchOf_append (first second : List (Nat × Nat)) (line : Nat) :
    matchOf (first ++ second) line = (matchOf first line).or (matchOf second line) := by
  unfold matchOf
  rw [List.find?_append, Option.map_or]

theorem mem_matched {i j count line : Nat} :
    line ∈ (diagonal i j count).map Prod.snd ↔ i ≤ line ∧ line < i + count := by
  unfold diagonal
  simp only [map_map, mem_map, mem_range, Function.comp_apply]
  constructor
  · rintro ⟨offset, hoffset, rfl⟩
    omega
  · rintro ⟨hfrom, hto⟩
    exact ⟨line - i, by omega, by omega⟩

/-! ## Edits -/

/-- A change of one line, or lines that are nowhere else put in or taken out, and what each line
of the new text should have. -/
inductive Edited (had : Nat → Option ℚ) (clock : Option ℚ) :
    List String → List String → (Nat → Option ℚ) → Prop where
  | changed (before after : List String) (line text : String) (hne : line ≠ text)
      (hbelow : ∀ first ∈ after.head?, first ≠ text) :
      Edited had clock (before ++ line :: after) (before ++ text :: after) fun place =>
        if place = before.length then (had place).or
          (if isBlank line && !isBlank text then clock else none)
        else had place
  | inserted (before added after : List String) (hnew : ∀ text ∈ added, text ∉ before ++ after) :
      Edited had clock (before ++ after) (before ++ (added ++ after)) fun place =>
        if place < before.length then had place
        else if place < before.length + added.length then
          if isBlank (added.getD (place - before.length) "") then none else clock
        else had (place - added.length)
  | removed (before removed after : List String) (hgone : ∀ line ∈ removed, line ∉ before ++ after) :
      Edited had clock (before ++ (removed ++ after)) (before ++ after) fun place =>
        if place < before.length then had place else had (place + removed.length)

section Edits

variable {had : Nat → Option ℚ} {clock : Option ℚ} {prev next : List String}
  {expected : Nat → Option ℚ}

/-- What the loop gives each line. -/
theorem Edited.secondsOf_eq (h : Edited had clock prev next expected)
    (hbudget : prev.length * next.length ≤ alignmentBudget) :
    ∀ line < next.length,
      secondsOf prev next had (matchLines prev next) clock line = expected line := by
  intro line hline
  unfold matchLines secondsOf
  rw [if_pos hbudget]
  cases h with
  | changed before after old new hne hbelow =>
    rw [length_append, length_cons] at hline
    rw [alignment_changed hne hbelow, matchOf_append, matchOf_diagonal, matchOf_diagonal]
    beta_reduce
    rcases lt_trichotomy line before.length with hless | rfl | hmore
    · rw [if_pos (by omega), Option.some_or, if_neg hless.ne]
      exact congrArg had (by omega)
    · rw [if_neg (by omega), if_neg (by omega), Option.none_or, if_pos rfl]
      have hplace : before.length < (before ++ old :: after).length ∧ before.length ∉
          (diagonal 0 0 before.length ++
            diagonal (before.length + 1) (before.length + 1) after.length).map Prod.snd := by
        rw [map_append, mem_append, mem_matched, mem_matched, length_append,
          length_cons]
        omega
      have hat : ∀ text : String, (before ++ text :: after).getD before.length "" = text := by
        intro text
        rw [getD_eq_getElem?_getD, getElem?_after, Option.getD_some]
      dsimp only
      rw [if_pos hplace, hat, hat]
      cases had before.length <;> rfl
    · rw [if_neg (by omega), if_pos (by omega), Option.none_or, if_neg hmore.ne']
      exact congrArg had (by omega)
  | inserted before added after hnew =>
    rw [length_append, length_append] at hline
    rw [alignment_inserted (fun text htext hmem => hnew text htext (mem_append_right _ hmem)),
      matchOf_append, matchOf_diagonal, matchOf_diagonal]
    beta_reduce
    by_cases hless : line < before.length
    · rw [if_pos (by omega), Option.some_or, if_pos hless]
      exact congrArg had (by omega)
    · rw [if_neg (by omega), Option.none_or, if_neg hless]
      by_cases hadded : line < before.length + added.length
      · rw [if_neg (by omega), if_pos hadded]
        have hplace : ¬ (line < (before ++ after).length ∧ line ∉
            (diagonal 0 0 before.length ++
              diagonal before.length (before.length + added.length) after.length).map
                Prod.snd) := by
          rw [map_append, mem_append, mem_matched, mem_matched, length_append]
          omega
        have hat : (before ++ (added ++ after)).getD line "" =
            added.getD (line - before.length) "" := by
          rw [getD_append_right _ _ _ _ (by omega), getD_append _ _ _ _ (by omega)]
        dsimp only
        rw [if_neg hplace, hat]
      · rw [if_pos (by omega), if_neg hadded]
        exact congrArg had (by omega)
  | removed before removed after hgone =>
    rw [length_append] at hline
    rw [alignment_removed (fun text htext hmem => hgone text htext (mem_append_right _ hmem)),
      matchOf_append, matchOf_diagonal, matchOf_diagonal]
    beta_reduce
    by_cases hless : line < before.length
    · rw [if_pos (by omega), Option.some_or, if_pos hless]
      exact congrArg had (by omega)
    · rw [if_neg (by omega), Option.none_or, if_neg hless, if_pos (by omega)]
      exact congrArg had (by omega)

end Edits

/-! ## What is kept -/

/-- The moments are those that are expected, one after the other in the new text. -/
structure Kept (moments : List LineMoment) (lineCount : Nat) (expected : Nat → Option ℚ) :
    Prop where
  sorted : moments.Pairwise fun earlier later => earlier.line < later.line
  inside : ∀ moment ∈ moments, moment.line < lineCount
  exact : ∀ line < lineCount, ∀ seconds, ⟨line, seconds⟩ ∈ moments ↔ expected line = some seconds

theorem isCount_clockOf {nowSeconds : Number} : ∀ seconds ∈ clockOf nowSeconds, IsCount seconds := by
  intro seconds h
  obtain ⟨-, hcount⟩ := Option.filter_eq_some_iff.mp h
  rw [Bool.and_eq_true, decide_eq_true_iff] at hcount
  exact hcount

/-- The seconds of a line are those of a moment or of the clock. -/
theorem isCount_secondsOf {prev next : List String} {had : Nat → Option ℚ}
    {pairs : List (Nat × Nat)} {clock : Option ℚ} (hhad : ∀ line, ∀ seconds ∈ had line, IsCount seconds)
    (hclock : ∀ seconds ∈ clock, IsCount seconds) (line : Nat) :
    ∀ seconds ∈ secondsOf prev next had pairs clock line, IsCount seconds := by
  intro seconds h
  unfold secondsOf at h
  split at h
  · exact hhad _ seconds h
  · split at h
    · split at h
      · rename_i hline
        exact hhad _ seconds (hline ▸ h)
      · split at h
        · exact hclock seconds h
        · cases h
    · split at h
      · cases h
      · exact hclock seconds h

theorem filter_secondsOf {prev next : List String} {had : Nat → Option ℚ}
    {pairs : List (Nat × Nat)} {clock : Option ℚ} (hhad : ∀ line, ∀ seconds ∈ had line, IsCount seconds)
    (hclock : ∀ seconds ∈ clock, IsCount seconds) (line : Nat) :
    (secondsOf prev next had pairs clock line).filter isInteger =
      secondsOf prev next had pairs clock line := by
  have hcount : ∀ seconds ∈ secondsOf prev next had pairs clock line, IsCount seconds :=
    isCount_secondsOf hhad hclock line
  cases hseconds : secondsOf prev next had pairs clock line with
  | none => rfl
  | some seconds => rw [Option.filter_some, (hcount seconds hseconds).1, if_pos rfl]

/-- An edit of one line, not to the text of the line below it, and lines put in or taken out that
are nowhere else leave every other line with the moment it had. -/
theorem moments_stay (previousText nextText : String) (moments : List Moment) (nowSeconds : Number)
    (expected : Nat → Option ℚ)
    (hbudget : (noteLines previousText).length * (noteLines nextText).length ≤ alignmentBudget)
    (hedited : Edited (momentsByLine (noteLines previousText).length moments) (clockOf nowSeconds)
      (noteLines previousText) (noteLines nextText) expected) :
    Kept (alignNoteMoments previousText moments nextText nowSeconds) (noteLines nextText).length
      expected := by
  unfold alignNoteMoments
  simp only [filter_secondsOf (isCount_momentsByLine _ moments) isCount_clockOf]
  refine ⟨?_, ?_, fun line hline seconds => ?_⟩
  · rw [List.pairwise_filterMap]
    refine List.pairwise_lt_range.imp fun hlt moment hmoment later hlater => ?_
    obtain ⟨_, -, rfl⟩ := Option.map_eq_some_iff.mp hmoment
    obtain ⟨_, -, rfl⟩ := Option.map_eq_some_iff.mp hlater
    exact hlt
  · intro moment hmem
    obtain ⟨line, hline, hmoment⟩ := List.mem_filterMap.mp hmem
    obtain ⟨_, -, rfl⟩ := Option.map_eq_some_iff.mp hmoment
    exact List.mem_range.mp hline
  · rw [List.mem_filterMap, ← hedited.secondsOf_eq hbudget line hline]
    constructor
    · rintro ⟨_, -, hmoment⟩
      obtain ⟨_, hseconds, heq⟩ := Option.map_eq_some_iff.mp hmoment
      cases heq
      exact hseconds
    · intro hseconds
      exact ⟨line, List.mem_range.mpr hline, by rw [hseconds]; rfl⟩

/-- The first line becomes what the second is: the second, which was not touched, loses its
moment to the first and gets the clock. -/
theorem moments_stay_below :
    alignNoteMoments "a\nb" [⟨some 1, some 5⟩] "b\nb" (some 9) = [⟨0, 5⟩, ⟨1, 9⟩] := by
  decide +kernel

/-- A line is put in above the last one. -/
theorem moments_stay_inserted :
    Kept (alignNoteMoments "plan\nship" [⟨some 0, some 5⟩, ⟨some 1, some 8⟩] "plan\ntest\nship"
      (some 12)) 3 fun place =>
        if place < 1 then momentsByLine 2 [⟨some 0, some 5⟩, ⟨some 1, some 8⟩] place
        else if place < 1 + 1 then if isBlank (["test"].getD (place - 1) "") then none
          else clockOf (some 12)
        else momentsByLine 2 [⟨some 0, some 5⟩, ⟨some 1, some 8⟩] (place - 1) := by
  refine moments_stay "plan\nship" "plan\ntest\nship" [⟨some 0, some 5⟩, ⟨some 1, some 8⟩] (some 12) _
    (by decide +kernel) ?_
  exact Edited.inserted ["plan"] ["test"] ["ship"] (by decide)

end NoteMoments

end YawnApp.Desktop
