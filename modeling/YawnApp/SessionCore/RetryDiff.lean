import YawnApp.Foundation.Words
import YawnApp.SessionCore.Operations

set_option autoImplicit false

/-!
# The word diff of a retry

`transcript_retry_diff` compares the visible words of a transcript with those of
its retry and answers, for each visible turn, how many words it counted in the
turn and which of them differ.  The renderer counts the words of the turn again
and trusts the spans only where the counts agree.

An index out of bounds is a panic: the functions that index answer `none` then.
-/

namespace YawnApp.SessionCore.RetryDiff

open YawnApp.Foundation

/-! ## Words -/

/-- `str::split_whitespace`, each word with the position of its first character. -/
def splitWhitespace (text : String) : List (Nat × List Char) := words isWhitespace text.toList

/-- `n as u32`. -/
def asU32 (n : Nat) : Nat := n % 2 ^ 32

/-- `i as usize`. -/
def asUsize (i : Int) : Nat := (i % 2 ^ 64).toNat

/-! ## Turns and spans -/

structure DiffTurnInput where
  withheld : Bool
  text : String
deriving DecidableEq

def DiffTurnInput.visible (text : String) : DiffTurnInput := ⟨false, text⟩

def maxDiffableWords : Nat := 20000

def maxEditBudget : Nat := 4000

inductive TranscriptRetryDiffState where
  | computed
  | skipped
deriving DecidableEq

structure WordSpan where
  startWord : Nat
  endWord : Nat
deriving DecidableEq

structure TurnDiffSpans where
  turnIndex : Nat
  wordCount : Nat
  spans : List WordSpan
deriving DecidableEq

structure TranscriptRetryDiff where
  state : TranscriptRetryDiffState
  current : List TurnDiffSpans
  candidate : List TurnDiffSpans
deriving DecidableEq

def TranscriptRetryDiff.skipped : TranscriptRetryDiff := ⟨.skipped, [], []⟩

/-! ## Token sequences -/

inductive Token where
  | word (letters : List Char)
  | boundary
deriving DecidableEq

/-- `PartialEq for Token`: a boundary equals nothing, not even a boundary. -/
def Token.same : Token → Token → Bool
  | .word a, .word b => a == b
  | _, _ => false

inductive Position where
  | word (turnIndex wordIndex : Nat)
  | boundary
deriving DecidableEq

def turnTokens (turn : DiffTurnInput) : List Token :=
  if turn.withheld then [.boundary] else (splitWhitespace turn.text).map fun word => .word word.2

def turnPositions (turnIndex : Nat) (turn : DiffTurnInput) : List Position :=
  if turn.withheld then [.boundary]
  else (splitWhitespace turn.text).zipIdx.map fun word => .word (asU32 turnIndex) (asU32 word.2)

/-- `build_sequence`. -/
def buildSequence (turns : List DiffTurnInput) : List Token × List Position :=
  (turns.flatMap turnTokens, turns.zipIdx.flatMap fun (turn, i) => turnPositions i turn)

/-! ## The shortest edit script -/

inductive Op where
  | keep
  | insert (index : Nat)
  | delete (index : Nat)
deriving DecidableEq

/-- `v[i]`. -/
def read {α : Type} (v : List α) (i : Int) : Option α := if 0 ≤ i then v[i.toNat]? else none

def diffOffset (n m maxD : Nat) : Int := (min maxD (n + m) : Nat) + 1

/-- The `while` of `myers_trace`, which runs at most as often as `a` has tokens
left. -/
def snake (a b : List Token) : Nat → Int → Int → Option (Int × Int)
  | 0, x, y => some (x, y)
  | left + 1, x, y =>
    if x < a.length ∧ y < b.length then do
      let here ← read a x
      let there ← read b y
      if here.same there then snake a b left (x + 1) (y + 1) else return (x, y)
    else some (x, y)

/-- `k == -d || (k != d && v[idx - 1] < v[idx + 1])`: the diagonal `k` is entered
from the one above it. -/
def fromAbove (v : List Int) (offset d k : Int) : Option Bool :=
  if k = -d then some true
  else if k = d then some false
  else do
    let below ← read v (k + offset - 1)
    let above ← read v (k + offset + 1)
    return decide (below < above)

/-- The row the diagonal `k` is entered at in round `d`. -/
def enter (v : List Int) (offset d k : Int) : Option Int := do
  if ← fromAbove v offset d k then read v (k + offset + 1)
  else return (← read v (k + offset - 1)) + 1

/-- The diagonals of round `d`: the last row of each, and whether one reached the
end of both sequences. -/
def diagonals (a b : List Token) (offset d : Int) : Nat → Int → List Int → Option (List Int × Bool)
  | 0, _, v => some (v, false)
  | left + 1, k, v => do
    let x ← enter v offset d k
    let (x, y) ← snake a b (a.length - x).toNat x (x - k)
    let v := v.set (k + offset).toNat x
    if x ≥ a.length ∧ y ≥ b.length then return (v, true)
    diagonals a b offset d left (k + 2) v

/-- The rounds of `myers_trace` from round `d`. -/
def rounds (a b : List Token) (offset : Int) :
    Nat → Nat → List Int → List (List Int) → Option (Option (List (List Int)))
  | 0, _, _, _ => some none
  | left + 1, d, v, trace => do
    let trace := trace ++ [v]
    let (v, reached) ← diagonals a b offset d (d + 1) (-d) v
    if reached then return some trace
    rounds a b offset left (d + 1) v trace

/-- `myers_trace`. -/
def myersTrace (a b : List Token) (maxD : Nat) (offset : Int) :
    Option (Option (List (List Int))) :=
  rounds a b offset (min maxD (a.length + b.length) + 1) 0
    (List.replicate (2 * offset + 1).toNat 0) []

/-- The loop of `backtrack` over the rounds below `d`, from the last: the ops of a
round, from its end. -/
def backtrackFrom (trace : List (List Int)) (offset : Int) : Nat → Int → Int → Option (List Op)
  | 0, _, _ => some []
  | d + 1, x, y => do
    let v ← (trace)[d]?
    let k := x - y
    let above ← fromAbove v offset d k
    let prevK := if above then k + 1 else k - 1
    let prevX ← read v (prevK + offset)
    let prevY := prevX - prevK
    let kept := (min (x - prevX) (y - prevY)).toNat
    let x := x - kept
    let y := y - kept
    let op := if d = 0 then [] else if x = prevX then [.insert (asUsize (y - 1))]
      else [.delete (asUsize (x - 1))]
    return List.replicate kept .keep ++ op ++ (← backtrackFrom trace offset d prevX prevY)

/-- `backtrack`. -/
def backtrack (aLen bLen : Int) (trace : List (List Int)) (offset : Int) : Option (List Op) :=
  (backtrackFrom trace offset trace.length aLen bLen).map List.reverse

/-! ## Spans -/

/-- A `BTreeMap<u32, Vec<WordSpan>>`. -/
abbrev SpansByTurn := AList fun _ : Nat => List WordSpan

/-- `push_span`. -/
def pushSpan (result : SpansByTurn) (turnIndex startWord endWord : Nat) : SpansByTurn :=
  result.insert turnIndex ((result.lookup turnIndex).getD [] ++ [⟨startWord, endWord⟩])

/-- `open.take()`, and the span it held pushed. -/
def closeSpan (result : SpansByTurn) : Option (Nat × Nat × Nat) → SpansByTurn
  | some (turnIndex, startWord, endWord) => pushSpan result turnIndex startWord endWord
  | none => result

/-- The loop of `spans_map_from_flags`: `opened` is the turn and the words of the
span that is being read. -/
def spansFrom (positions : List Position) :
    List Nat → SpansByTurn → Option (Nat × Nat × Nat) → Option SpansByTurn
  | [], result, opened => some (closeSpan result opened)
  | i :: flagged, result, opened => do
    match ← positions[i]? with
    | .boundary => spansFrom positions flagged (closeSpan result opened) none
    | .word turnIndex wordIndex =>
      match opened with
      | some (turn, start, stop) =>
        if turn = turnIndex ∧ stop = wordIndex then
          spansFrom positions flagged result (some (turn, start, wordIndex + 1))
        else
          spansFrom positions flagged (closeSpan result opened)
            (some (turnIndex, wordIndex, wordIndex + 1))
      | none => spansFrom positions flagged result (some (turnIndex, wordIndex, wordIndex + 1))

/-- `spans_map_from_flags`. -/
def spansMapFromFlags (positions : List Position) (flagged : List Nat) : Option SpansByTurn :=
  spansFrom positions flagged ∅ none

/-- The entries of the turns from the `i`-th on: each visible turn takes its spans
out of the map. -/
def entriesFrom : Nat → List DiffTurnInput → SpansByTurn → List TurnDiffSpans
  | _, [], _ => []
  | i, turn :: turns, spans =>
    if turn.withheld then entriesFrom (i + 1) turns spans
    else
      ⟨asU32 i, asU32 (splitWhitespace turn.text).length, (spans.lookup (asU32 i)).getD []⟩ ::
        entriesFrom (i + 1) turns (spans.erase (asU32 i))

/-- `turn_diff_entries`. -/
def turnDiffEntries (turns : List DiffTurnInput) (positions : List Position)
    (flagged : List Nat) : Option (List TurnDiffSpans) :=
  (spansMapFromFlags positions flagged).map (entriesFrom 0 turns)

def Op.deleted : Op → Option Nat
  | .delete i => some i
  | _ => none

def Op.inserted : Op → Option Nat
  | .insert i => some i
  | _ => none

/-- `diff_transcript_turns`. -/
def diffTranscriptTurns (current candidate : List DiffTurnInput) : Option TranscriptRetryDiff := do
  let (currentTokens, currentPositions) := buildSequence current
  let (candidateTokens, candidatePositions) := buildSequence candidate
  if currentTokens.length > maxDiffableWords ∨ candidateTokens.length > maxDiffableWords then
    return TranscriptRetryDiff.skipped
  let offset := diffOffset currentTokens.length candidateTokens.length maxEditBudget
  match ← myersTrace currentTokens candidateTokens maxEditBudget offset with
  | none => return TranscriptRetryDiff.skipped
  | some trace =>
    let ops ← backtrack currentTokens.length candidateTokens.length trace offset
    return {
      state := .computed
      current := ← turnDiffEntries current currentPositions (ops.filterMap Op.deleted)
      candidate := ← turnDiffEntries candidate candidatePositions (ops.filterMap Op.inserted) }

example : diffTranscriptTurns [.visible "the cat sat"] [.visible "the dog sat"] =
    some ⟨.computed, [⟨0, 3, [⟨1, 2⟩]⟩], [⟨0, 3, [⟨1, 2⟩]⟩]⟩ := by
  decide +kernel

/-! ## What the comparison says of a turn -/

/-- The visible turns of a side. -/
def visibleTurns (turns : List DiffTurnInput) : List DiffTurnInput :=
  turns.filter fun turn => !turn.withheld

/-- The comparison of two transcripts has the entry for a visible turn with that
text, on either side. -/
def Compared (text : String) (entry : TurnDiffSpans) : Prop :=
  ∃ current candidate diff, diffTranscriptTurns current candidate = some diff ∧
    ((.visible text, entry) ∈ (visibleTurns current).zip diff.current ∨
      (.visible text, entry) ∈ (visibleTurns candidate).zip diff.candidate)

theorem entriesFrom_wordCount {turn : DiffTurnInput} {entry : TurnDiffSpans}
    (turns : List DiffTurnInput) :
    ∀ (i : Nat) (spans : SpansByTurn),
      (turn, entry) ∈ (visibleTurns turns).zip (entriesFrom i turns spans) →
      turn ∈ turns ∧ turn.withheld = false ∧
        entry.wordCount = asU32 (splitWhitespace turn.text).length := by
  induction turns with
  | nil => intro i spans h; cases h
  | cons first turns ih =>
    intro i spans h
    unfold visibleTurns at h
    rw [entriesFrom] at h
    cases hwithheld : first.withheld with
    | true =>
      rw [hwithheld, if_pos rfl, List.filter_cons_of_neg (by simp [hwithheld])] at h
      obtain ⟨hmem, hrest⟩ := ih (i + 1) spans h
      exact ⟨List.mem_cons_of_mem first hmem, hrest⟩
    | false =>
      rw [hwithheld, if_neg Bool.false_ne_true, List.filter_cons_of_pos (by simp [hwithheld]),
        List.zip_cons_cons, List.mem_cons] at h
      rcases h with h | h
      · cases h
        exact ⟨List.mem_cons_self, hwithheld, rfl⟩
      · obtain ⟨hmem, hrest⟩ := ih (i + 1) (spans.erase (asU32 i)) h
        exact ⟨List.mem_cons_of_mem first hmem, hrest⟩

/-- A visible turn has no more words than its side has tokens. -/
theorem length_le_tokens {turns : List DiffTurnInput} {turn : DiffTurnInput} (h : turn ∈ turns)
    (hvisible : turn.withheld = false) :
    (splitWhitespace turn.text).length ≤ (buildSequence turns).1.length := by
  have htokens : (turnTokens turn).length = (splitWhitespace turn.text).length := by
    unfold turnTokens
    rw [hvisible, if_neg Bool.false_ne_true, List.length_map]
  rw [← htokens]
  exact (List.sublist_flatten_of_mem (List.mem_map_of_mem h)).length_le

/-- The words the comparison counted in a turn are all its words: the count fits
`u32`. -/
theorem wordCount_of_compared {text : String} {entry : TurnDiffSpans} (h : Compared text entry) :
    entry.wordCount = (splitWhitespace text).length := by
  obtain ⟨current, candidate, diff, hdiff, hentry⟩ := h
  have hbound : ∀ {turns : List DiffTurnInput} {positions flagged} {entries : List TurnDiffSpans},
      (buildSequence turns).1.length ≤ maxDiffableWords →
      turnDiffEntries turns positions flagged = some entries →
      (DiffTurnInput.visible text, entry) ∈ (visibleTurns turns).zip entries →
      entry.wordCount = (splitWhitespace text).length := by
    intro turns positions flagged entries hle hentries hmem
    obtain ⟨spans, -, rfl⟩ := Option.map_eq_some_iff.mp hentries
    obtain ⟨hturn, hvisible, hcount⟩ := entriesFrom_wordCount turns 0 spans hmem
    have hlength := length_le_tokens hturn hvisible
    unfold maxDiffableWords at hle
    rw [hcount]
    exact Nat.mod_eq_of_lt (by simp only [DiffTurnInput.visible] at hlength ⊢; omega)
  unfold diffTranscriptTurns at hdiff
  dsimp only at hdiff
  split at hdiff
  · cases hdiff
    rcases hentry with hentry | hentry <;> simp [TranscriptRetryDiff.skipped] at hentry
  · rename_i hsize
    rw [not_or, Nat.not_lt, Nat.not_lt] at hsize
    obtain ⟨trace, -, hdiff⟩ := Option.bind_eq_some_iff.mp hdiff
    cases trace with
    | none =>
      cases hdiff
      rcases hentry with hentry | hentry <;> simp [TranscriptRetryDiff.skipped] at hentry
    | some =>
      obtain ⟨ops, -, hdiff⟩ := Option.bind_eq_some_iff.mp hdiff
      obtain ⟨currentEntries, hcurrent, hdiff⟩ := Option.bind_eq_some_iff.mp hdiff
      obtain ⟨candidateEntries, hcandidate, hdiff⟩ := Option.bind_eq_some_iff.mp hdiff
      cases hdiff
      rcases hentry with hentry | hentry
      · exact hbound hsize.1 hcurrent hentry
      · exact hbound hsize.2 hcandidate hentry

end YawnApp.SessionCore.RetryDiff
