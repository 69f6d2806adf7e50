import Mathlib.Logic.Function.Basic
import YawnApp.Foundation.PausedTime

set_option autoImplicit false

/-!
# The ledger of a note (`view-model.mjs`)

One row for each line of the note.  A timed line is shown beside the turn that is spoken
nearest its moment, and the turns between two shown turns fold into a count.  Lines come in
the order of the note, so a later line can point back to a turn that was shown.

Numbers of the page are exact here.
-/

namespace YawnApp.Desktop

open YawnApp.Foundation List

namespace NoteLedger

/-- What `Number(...)` makes of a value; `none` is no finite number. -/
abbrev Number : Type := Option ℚ

/-- `Number.isInteger` -/
def isInteger (q : ℚ) : Bool := q.den = 1

/-- The white space and the line ends that `trim` takes off. -/
def isTrimmed (c : Char) : Bool :=
  c.toNat ∈ [0x09, 0x0A, 0x0B, 0x0C, 0x0D, 0x20, 0xA0, 0x1680, 0x2028, 0x2029, 0x202F, 0x205F,
    0x3000, 0xFEFF] || (0x2000 ≤ c.toNat && c.toNat ≤ 0x200A)

/-- `text.split("\n")` -/
def noteLines (text : String) : List String := (text.toList.splitOn '\n').map String.ofList

/-! ## Positions in the audio -/

/-- The round of the loop of `momentAudioSeconds` for one span. -/
def subtractPause (moment : ℚ) (audio : ℚ) (span : Number × Number) : ℚ :=
  match span.1, span.2 with
  | some pausedAt, some resumedAt =>
    if resumedAt ≤ pausedAt then audio
    else if resumedAt ≤ moment then audio - (resumedAt - pausedAt)
    else if pausedAt < moment then audio - (moment - pausedAt)
    else audio
  | _, _ => audio

/-- `momentAudioSeconds` -/
def momentAudioSeconds (seconds : Number) (spans : List (Number × Number)) : Number :=
  match seconds with
  | none => none
  | some moment =>
    if moment < 0 then none else some (max 0 (spans.foldl (subtractPause moment) moment))

/-- The round of the loop of `nearestTurnIndex` for one turn; the distance so far is infinite
when there is none. -/
def nearer (target : ℚ) (best : ℤ × Option ℚ) (turn : Number × Nat) : ℤ × Option ℚ :=
  match turn.1 with
  | none => best
  | some start => if ∀ distance ∈ best.2, |start - target| < distance
    then (turn.2, some |start - target|) else best

/-- `nearestTurnIndex` over the starts of the turns. -/
def nearestTurnIndex (turns : List Number) (audioSeconds : Number) : ℤ :=
  match audioSeconds with
  | none => -1
  | some target => (turns.zipIdx.foldl (nearer target) (-1, none)).1

/-! ## Rows -/

/-- A moment of a line of the note. -/
structure Moment where
  line : Number
  seconds : Number

structure LedgerRow where
  line : Nat
  text : String
  seconds : Option ℚ
  audioSeconds : Number
  turnIndex : ℤ
  foldedBefore : ℤ
  repeats : Bool
deriving DecidableEq

/-- One moment of the loop that fills `byLine`. -/
def setMoment (lineCount : Nat) (byLine : Nat → Option ℚ) (moment : Moment) : Nat → Option ℚ :=
  match moment.line, moment.seconds with
  | some line, some seconds =>
    if isInteger line ∧ 0 ≤ line ∧ line < lineCount ∧ isInteger seconds ∧ 0 ≤ seconds
      then Function.update byLine line.num.toNat (some seconds) else byLine
  | _, _ => byLine

/-- `byLine`: the last moment of a line stands. -/
def momentsByLine (lineCount : Nat) (moments : List Moment) : Nat → Option ℚ :=
  moments.foldl (setMoment lineCount) fun _ => none

/-- The variables that the rows share. -/
structure Scan where
  previousTurn : ℤ
  lastTimedLine : ℤ

section Rows

variable (byLine : Nat → Option ℚ) (turns : List Number) (spans : List (Number × Number))

/-- The row of a line, and the variables after it. -/
def ledgerRow (scan : Scan) (text : String) (line : Nat) : LedgerRow × Scan :=
  match byLine line with
  | none => (⟨line, text, none, none, -1, 0, false⟩, scan)
  | some seconds =>
    let audioSeconds := momentAudioSeconds (some seconds) spans
    -- `Number(null)` is 0
    let turnIndex := nearestTurnIndex turns (some (audioSeconds.getD 0))
    (⟨line, text, some seconds, audioSeconds, turnIndex,
      if turnIndex > scan.previousTurn then max 0 (turnIndex - scan.previousTurn - 1) else 0,
      0 ≤ turnIndex && turnIndex ≤ scan.previousTurn⟩,
      ⟨if turnIndex > scan.previousTurn then turnIndex else scan.previousTurn, line⟩)

def ledgerRows : Scan → List (String × Nat) → List LedgerRow × Scan
  | scan, [] => ([], scan)
  | scan, (text, line) :: rest =>
    let (row, next) := ledgerRow byLine turns spans scan text line
    let (rows, last) := ledgerRows next rest
    (row :: rows, last)

end Rows

structure Ledger where
  rows : List LedgerRow
  timed : Nat
  hasRail : Bool
  afterStopLine : ℤ
  lastTimedLine : ℤ

/-- `noteLedgerPresentation` -/
def noteLedgerPresentation (text : String) (moments : List Moment) (turns : List Number)
    (spans : List (Number × Number)) : Ledger :=
  let lines := noteLines text
  let (rows, scan) := ledgerRows (momentsByLine lines.length moments) turns spans ⟨-1, -1⟩
    lines.zipIdx
  let timed := (rows.filter fun row => row.seconds.isSome).length
  {
    rows
    timed
    hasRail := 0 < timed
    afterStopLine :=
      if scan.lastTimedLine < 0 then -1
      else ((rows.findIdx? fun row => row.seconds.isNone && scan.lastTimedLine < row.line &&
        !row.text.toList.all isTrimmed).map Int.ofNat).getD (-1)
    lastTimedLine := scan.lastTimedLine }

structure Fold where
  key : ℤ
  count : ℤ
  expanded : Bool
  turnIndexes : List ℤ
  visibleLabel : String
  accessibleName : String

/-- `ledgerFoldPresentation` -/
def ledgerFoldPresentation (row : LedgerRow) (openFolds : List ℤ) : Option Fold :=
  let count := row.foldedBefore
  if count ≤ 0 ∨ row.turnIndex < count then none
  else
    let noun := if count = 1 then "turn" else "turns"
    some {
      key := row.turnIndex
      count
      expanded := row.turnIndex ∈ openFolds
      turnIndexes := (List.range count.toNat).map fun offset : Nat => row.turnIndex - count + offset
      visibleLabel := "+ " ++ toString count ++ " " ++ noun
      accessibleName := toString count ++ " more " ++ noun }

/-! ## Audio positions -/

/-- The spans as the page reads them. -/
def readSpans (spans : List (ℚ × ℚ)) : List (Number × Number) :=
  spans.map fun span => (some span.1, some span.2)

theorem subtractPause_eq (moment audio : ℚ) (span : ℚ × ℚ) :
    subtractPause moment audio (some span.1, some span.2) = audio - taken moment span := by
  unfold subtractPause taken
  dsimp only
  split
  · rename_i hempty
    rw [max_eq_left (by linarith [min_le_right moment span.2]), sub_zero]
  · rename_i hspan
    rw [not_le] at hspan
    split
    · rename_i hwhole
      rw [min_eq_right hwhole, max_eq_right (by linarith)]
    · rename_i hpart
      rw [not_le] at hpart
      rw [min_eq_left hpart.le]
      split
      · rename_i hinside
        rw [max_eq_right (by linarith)]
      · rename_i hbefore
        rw [max_eq_left (by linarith), sub_zero]

theorem foldl_subtractPause (moment : ℚ) (spans : List (ℚ × ℚ)) :
    ∀ audio, (readSpans spans).foldl (subtractPause moment) audio =
      audio - (spans.map (taken moment)).sum := by
  induction spans with
  | nil => exact fun audio => (sub_zero audio).symm
  | cons span rest ih =>
    intro audio
    rw [readSpans, map_cons, foldl_cons, subtractPause_eq, ← readSpans, ih,
      map_cons, sum_cons]
    ring

/-- The position in the audio is the time that was not paused. -/
theorem momentAudioSeconds_eq {spans : List (ℚ × ℚ)} (h : OrderedSpans spans) {moment : ℚ}
    (hmoment : 0 ≤ moment) :
    momentAudioSeconds (some moment) (readSpans spans) = some (elapsed spans moment) := by
  unfold momentAudioSeconds
  dsimp only
  rw [if_neg (not_lt.mpr hmoment), foldl_subtractPause]
  exact congrArg some (max_eq_right (elapsed_nonneg h hmoment))

/-! ## The nearest turn -/

/-- A turn that starts at the least distance from the position. -/
def IsNearest (turns : List Number) (audio : ℚ) (turnIndex : ℤ) : Prop :=
  ∃ (index : Nat) (start : ℚ), turnIndex = index ∧ turns[index]? = some (some start) ∧
    ∀ other, some other ∈ turns → |start - audio| ≤ |other - audio|

/-- What the loop has after some turns. -/
def Nearest (turns : List Number) (target : ℚ) (best : ℤ × Option ℚ) : Prop :=
  (best = (-1, none) ∧ ∀ start, some start ∉ turns) ∨
    ∃ (index : Nat) (start : ℚ), best = ((index : ℤ), some |start - target|) ∧
      turns[index]? = some (some start) ∧
      ∀ other, some other ∈ turns → |start - target| ≤ |other - target|

theorem nearest_foldl (turns : List Number) (target : ℚ) :
    Nearest turns target (turns.zipIdx.foldl (nearer target) (-1, none)) := by
  induction turns using List.reverseRecOn with
  | nil => exact .inl ⟨rfl, fun _ h => absurd h not_mem_nil⟩
  | append_singleton turns turn ih =>
    rw [zipIdx_append, foldl_append]
    simp only [zipIdx_cons, zipIdx_nil, foldl_cons, foldl_nil, Nat.zero_add]
    generalize turns.zipIdx.foldl (nearer target) (-1, none) = best at ih
    have hold : ∀ {index : Nat} {start : ℚ}, turns[index]? = some (some start) →
        (turns ++ [turn])[index]? = some (some start) := by
      intro index start hindex
      rw [List.getElem?_append_left (List.getElem?_eq_some_iff.mp hindex).1, hindex]
    unfold nearer
    cases turn with
    | none =>
      have hsame : ∀ start, (some start : Number) ∈ turns ++ [none] ↔ some start ∈ turns := by
        simp
      rcases ih with ⟨rfl, hnone⟩ | ⟨index, start, rfl, hindex, hleast⟩
      · exact .inl ⟨rfl, fun start h => hnone start ((hsame start).mp h)⟩
      · exact .inr ⟨index, start, rfl, hold hindex,
          fun other h => hleast other ((hsame other).mp h)⟩
    | some start =>
      have hmem : ∀ other, (some other : Number) ∈ turns ++ [some start] ↔
          some other ∈ turns ∨ other = start := by
        simp
      have hnew : (turns ++ [some start])[turns.length]? = some (some start) :=
        List.getElem?_concat_length
      dsimp only
      rcases ih with ⟨rfl, hnone⟩ | ⟨index, first, rfl, hindex, hleast⟩
      · rw [if_pos (fun _ h => by cases h)]
        refine .inr ⟨turns.length, start, rfl, hnew, fun other h => ?_⟩
        rcases (hmem other).mp h with h | rfl
        · exact absurd h (hnone other)
        · exact le_refl _
      · by_cases hcloser : |start - target| < |first - target|
        · rw [if_pos (fun distance h => by cases h; exact hcloser)]
          refine .inr ⟨turns.length, start, rfl, hnew, fun other h => ?_⟩
          rcases (hmem other).mp h with h | rfl
          · exact hcloser.le.trans (hleast other h)
          · exact le_refl _
        · rw [if_neg (fun h => hcloser (h _ rfl))]
          refine .inr ⟨index, first, rfl, hold hindex, fun other h => ?_⟩
          rcases (hmem other).mp h with h | rfl
          · exact hleast other h
          · exact not_lt.mp hcloser

variable {turns : List Number}

theorem isNearest_nearestTurnIndex (audio : ℚ) (h : ∃ start, some start ∈ turns) :
    IsNearest turns audio (nearestTurnIndex turns (some audio)) := by
  obtain ⟨start, hstart⟩ := h
  unfold nearestTurnIndex
  rcases nearest_foldl turns audio with ⟨-, hnone⟩ | ⟨index, first, hbest, hindex, hleast⟩
  · exact absurd hstart (hnone start)
  · exact ⟨index, first, congrArg Prod.fst hbest, hindex, hleast⟩

theorem nearestTurnIndex_untimed (audio : ℚ) (h : ∀ start, some start ∉ turns) :
    nearestTurnIndex turns (some audio) = -1 := by
  unfold nearestTurnIndex
  rcases nearest_foldl turns audio with ⟨hbest, -⟩ | ⟨index, first, -, hindex, -⟩
  · exact congrArg Prod.fst hbest
  · exact absurd (mem_of_getElem? hindex) (h first)

/-! ## Shown and folded turns -/

/-- The row shows its turn. -/
def LedgerRow.isShown (row : LedgerRow) : Bool :=
  row.seconds.isSome && !row.repeats && decide (0 ≤ row.turnIndex)

/-- The turns that rows show. -/
def shownTurns (rows : List LedgerRow) : List ℤ :=
  (rows.filter LedgerRow.isShown).map LedgerRow.turnIndex

/-- The turns of the fold above a row, and the one it shows. -/
def LedgerRow.covered (openFolds : List ℤ) (row : LedgerRow) : List ℤ :=
  ((ledgerFoldPresentation row openFolds).map Fold.turnIndexes).getD [] ++
    if row.isShown then [row.turnIndex] else []

/-- The whole numbers after the first up to the second. -/
def upTo (first last : ℤ) : List ℤ :=
  (List.range (last - first).toNat).map fun offset : Nat => first + 1 + (offset : ℤ)

theorem upTo_self (first : ℤ) : upTo first first = [] := by
  rw [upTo, sub_self, Int.toNat_zero, range_zero, map_nil]

theorem upTo_append {first middle last : ℤ} (hfirst : first ≤ middle) (hlast : middle ≤ last) :
    upTo first middle ++ upTo middle last = upTo first last := by
  have hlength : (last - first).toNat = (middle - first).toNat + (last - middle).toNat := by omega
  unfold upTo
  rw [hlength, range_add, map_append, map_map]
  congr 1
  apply map_congr_left
  intro offset _
  rw [Function.comp_apply, Nat.cast_add]
  omega

theorem upTo_succ {first last : ℤ} (h : first ≤ last) :
    upTo first (last + 1) = upTo first last ++ [last + 1] := by
  rw [← upTo_append h (by omega : last ≤ last + 1)]
  congr 1
  rw [upTo, add_sub_cancel_left]
  exact congrArg (fun first => [first]) (add_zero (last + 1))

theorem pairwise_upTo (first last : ℤ) : (upTo first last).Pairwise (· < ·) := by
  unfold upTo
  rw [pairwise_map]
  apply pairwise_lt_range.imp
  intro h
  omega

section Cover

variable {byLine : Nat → Option ℚ} {turns : List Number} {spans : List (Number × Number)}

/-- A timed row covers the turns after the previous one up to its own. -/
theorem LedgerRow.covered_timed {row : LedgerRow} {previous : ℤ} (hprevious : -1 ≤ previous)
    (hseconds : row.seconds.isSome = true)
    (hfolded : row.foldedBefore =
      if row.turnIndex > previous then max 0 (row.turnIndex - previous - 1) else 0)
    (hrepeats : row.repeats = (decide (0 ≤ row.turnIndex) && decide (row.turnIndex ≤ previous)))
    (openFolds : List ℤ) :
    row.covered openFolds =
      upTo previous (if row.turnIndex > previous then row.turnIndex else previous) ∧
    (if row.isShown then row.turnIndex else previous) =
      if row.turnIndex > previous then row.turnIndex else previous := by
  have hshown : row.isShown = decide (row.turnIndex > previous) := by
    rw [LedgerRow.isShown, hseconds, hrepeats, Bool.eq_iff_iff]
    simp only [Bool.true_and, Bool.and_eq_true, Bool.not_eq_true', Bool.and_eq_false_iff,
      decide_eq_false_iff_not, decide_eq_true_iff]
    omega
  unfold LedgerRow.covered ledgerFoldPresentation
  rw [hshown, hfolded]
  by_cases hnext : row.turnIndex > previous
  · simp only [if_pos hnext, decide_eq_true hnext, if_true, and_true]
    have hsucc := upTo_succ (by omega : previous ≤ row.turnIndex - 1)
    rw [sub_add_cancel] at hsucc
    rw [hsucc]
    congr 1
    split
    · have hnone : row.turnIndex - 1 = previous := by omega
      rw [hnone, upTo_self]
      rfl
    · rw [Option.map_some, Option.getD_some]
      have hcount : max 0 (row.turnIndex - previous - 1) = row.turnIndex - 1 - previous := by omega
      rw [hcount, upTo]
      apply map_congr_left
      intro offset _
      omega
  · simp only [if_neg hnext, decide_eq_false hnext, upTo_self]
    exact ⟨rfl, rfl⟩

/-- A row covers the turns after the previous one up to the next. -/
theorem covered_ledgerRow {scan : Scan} (hscan : -1 ≤ scan.previousTurn) (openFolds : List ℤ)
    (text : String) (line : Nat) :
    scan.previousTurn ≤ (ledgerRow byLine turns spans scan text line).2.previousTurn ∧
    (ledgerRow byLine turns spans scan text line).1.covered openFolds =
      upTo scan.previousTurn (ledgerRow byLine turns spans scan text line).2.previousTurn ∧
    (if (ledgerRow byLine turns spans scan text line).1.isShown
      then (ledgerRow byLine turns spans scan text line).1.turnIndex else scan.previousTurn) =
      (ledgerRow byLine turns spans scan text line).2.previousTurn := by
  unfold ledgerRow
  cases byLine line with
  | none => exact ⟨le_refl _, (upTo_self _).symm, rfl⟩
  | some =>
    refine ⟨?_, LedgerRow.covered_timed hscan rfl rfl rfl openFolds⟩
    dsimp only
    split
    · rename_i hnext
      exact hnext.le
    · exact le_refl _

/-- The rows cover the turns after the previous one up to the last shown one. -/
theorem covered_ledgerRows (openFolds : List ℤ) (lines : List (String × Nat)) :
    ∀ {scan : Scan}, -1 ≤ scan.previousTurn →
      scan.previousTurn ≤ (ledgerRows byLine turns spans scan lines).2.previousTurn ∧
      (ledgerRows byLine turns spans scan lines).1.flatMap (LedgerRow.covered openFolds) =
        upTo scan.previousTurn (ledgerRows byLine turns spans scan lines).2.previousTurn ∧
      (shownTurns (ledgerRows byLine turns spans scan lines).1).getLast?.getD scan.previousTurn =
        (ledgerRows byLine turns spans scan lines).2.previousTurn := by
  induction lines with
  | nil => exact fun _ => ⟨le_refl _, (upTo_self _).symm, rfl⟩
  | cons entry rest ih =>
    intro scan hscan
    obtain ⟨hle, hcovered, hshown⟩ := @covered_ledgerRow byLine turns spans scan hscan openFolds
      entry.1 entry.2
    obtain ⟨hlater, hrest, hlast⟩ := ih (hscan.trans hle)
    rw [ledgerRows]
    dsimp only
    refine ⟨hle.trans hlater, ?_, ?_⟩
    · rw [flatMap_cons, hcovered, hrest, upTo_append hle hlater]
    · rw [← hlast, ← hshown, shownTurns, filter_cons]
      split
      · rw [map_cons, List.getLast?_cons]
        rfl
      · rfl

/-- The shown turns are among those that are covered, in this order. -/
theorem shownTurns_sublist (openFolds : List ℤ) (rows : List LedgerRow) :
    (shownTurns rows).Sublist (rows.flatMap (LedgerRow.covered openFolds)) := by
  induction rows with
  | nil => exact List.Sublist.refl _
  | cons row rest ih =>
    rw [shownTurns, filter_cons, flatMap_cons, LedgerRow.covered]
    split
    · rw [map_cons, append_assoc]
      exact (ih.cons_cons _).trans (sublist_append_right _ _)
    · exact ih.trans (sublist_append_right _ _)

end Cover

/-! ## Moments of lines -/

/-- Seconds of a moment that is kept are a count. -/
def IsCount (seconds : ℚ) : Prop := isInteger seconds = true ∧ 0 ≤ seconds

theorem isCount_setMoment {lineCount : Nat} {byLine : Nat → Option ℚ}
    (h : ∀ line, ∀ seconds ∈ byLine line, IsCount seconds) (moment : Moment) :
    ∀ line, ∀ seconds ∈ setMoment lineCount byLine moment line, IsCount seconds := by
  intro line seconds hseconds
  obtain ⟨_ | momentLine, _ | momentSeconds⟩ := moment
  · exact h line seconds hseconds
  · exact h line seconds hseconds
  · exact h line seconds hseconds
  · simp only [setMoment] at hseconds
    split at hseconds
    · rename_i hvalid
      rw [Function.update_apply] at hseconds
      split at hseconds
      · cases hseconds
        exact hvalid.2.2.2
      · exact h line seconds hseconds
    · exact h line seconds hseconds

theorem isCount_momentsByLine (lineCount : Nat) (moments : List Moment) :
    ∀ line, ∀ seconds ∈ momentsByLine lineCount moments line, IsCount seconds := by
  unfold momentsByLine
  induction moments using List.reverseRecOn with
  | nil => exact fun _ _ h => by cases h
  | append_singleton moments moment ih =>
    rw [foldl_concat]
    exact isCount_setMoment ih moment

/-- What a timed row says of its moment. -/
theorem timed_ledgerRows {byLine : Nat → Option ℚ} {spans : List (Number × Number)}
    (lines : List (String × Nat)) :
    ∀ {scan : Scan}, ∀ row ∈ (ledgerRows byLine turns spans scan lines).1,
      ∀ seconds, row.seconds = some seconds → seconds ∈ byLine row.line ∧
        row.audioSeconds = momentAudioSeconds (some seconds) spans ∧
        row.turnIndex = nearestTurnIndex turns (some (row.audioSeconds.getD 0)) := by
  induction lines with
  | nil => exact fun row h => absurd h not_mem_nil
  | cons entry rest ih =>
    intro scan row hrow seconds hseconds
    rw [ledgerRows] at hrow
    dsimp only at hrow
    rcases mem_cons.mp hrow with rfl | hrow
    · unfold ledgerRow at hseconds ⊢
      cases hline : byLine entry.2 with
      | none =>
        rw [hline] at hseconds
        cases hseconds
      | some =>
        rw [hline] at hseconds
        cases hseconds
        exact ⟨hline, rfl, rfl⟩
    · exact ih row hrow seconds hseconds

/-! ## The ledger -/

end NoteLedger

end YawnApp.Desktop
