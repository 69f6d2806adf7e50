import YawnApp.SessionCore.Operations

set_option autoImplicit false

/-!
# Windows of a transcript (`corpus_window.rs`)

A window is 128 words of what a transcript shows.  It carries no text: it says
from which turn and between which scalars each run of its words was taken, and
`window_text` puts the words together again.  A text here is the list of its
scalars.
-/

namespace YawnApp.SessionCore

open YawnApp.Foundation

/-- `Sha256::digest` of the UTF-8 bytes of a text, in hexadecimal. -/
class TextDigest where
  sha256 : String → String

namespace CorpusWindow

def windowWords : Nat := 128

/-- One run of words within one turn, by scalars of the turn's text. -/
structure WindowSegment where
  sourceTurnIndex : Nat
  originalScalarStart : Nat
  originalScalarEnd : Nat
deriving DecidableEq, Repr

/-- `CorpusWindow`. -/
structure Window where
  windowIndex : Nat
  wordCount : Nat
  segments : List WindowSegment
deriving DecidableEq, Repr

/-- A turn as the segmentation reads it. -/
structure WindowTurn where
  index : Nat
  text : String
  gated : Bool
deriving DecidableEq

/-- `is_word_separator`. -/
def isWordSeparator (c : Char) : Bool :=
  isWhitespace c || (0x1C ≤ c.toNat && c.toNat ≤ 0x1F)

/-- The loop of `word_spans`: `opened` is where the word began that is being
read, and `scalar` is the position of the next scalar. -/
def wordSpansFrom : Option Nat → Nat → List Char → List (Nat × Nat)
  | opened, scalar, [] => (opened.map fun start => (start, scalar)).toList
  | opened, scalar, c :: rest =>
    if isWordSeparator c then
      (opened.map fun start => (start, scalar)).toList ++ wordSpansFrom none (scalar + 1) rest
    else wordSpansFrom (some (opened.getD scalar)) (scalar + 1) rest

/-- `word_spans`. -/
def wordSpans (text : String) : List (Nat × Nat) := wordSpansFrom none 0 text.toList

/-! ## Segmentation -/

/-- The variables of the loop of `windows`. -/
structure Segmentation where
  finished : List Window
  segments : List WindowSegment
  words : Nat

/-- The segments with one more word: the last one grows if it is of the same
turn. -/
def extendSegments (turnIndex : Nat) (span : Nat × Nat) (segments : List WindowSegment) :
    List WindowSegment :=
  match segments.getLast? with
  | some segment =>
    if segment.sourceTurnIndex = turnIndex then
      segments.dropLast ++ [{ segment with originalScalarEnd := span.2 }]
    else segments ++ [⟨turnIndex, span.1, span.2⟩]
  | none => [⟨turnIndex, span.1, span.2⟩]

def addWord (turnIndex : Nat) (state : Segmentation) (span : Nat × Nat) : Segmentation :=
  let segments := extendSegments turnIndex span state.segments
  let words := state.words + 1
  if words = windowWords then
    { finished := state.finished ++ [⟨state.finished.length, words, segments⟩]
      segments := []
      words := 0 }
  else { state with segments, words }

def addTurn (state : Segmentation) (turn : WindowTurn) : Segmentation :=
  if turn.gated then state else (wordSpans turn.text).foldl (addWord turn.index) state

/-- `windows`. -/
def windows (turns : List WindowTurn) : List Window :=
  let state := turns.foldl addTurn ⟨[], [], 0⟩
  if state.words > 0 then
    state.finished ++ [⟨state.finished.length, state.words, state.segments⟩]
  else state.finished

/-! ## Texts -/

/-- `scalar_slice`: no range the text cannot supply. -/
def scalarSlice (text : String) (start stop : Nat) : Option (List Char) :=
  if stop < start ∨ text.toList.length < stop then none
  else some ((text.toList.drop start).take (stop - start))

/-- `slice.split(is_word_separator).filter(|w| !w.is_empty())`. -/
def splitWords (slice : List Char) : List (List Char) :=
  (slice.splitOnP isWordSeparator).filter fun word => !word.isEmpty

/-- The words of the segments of a window. -/
def segmentWords (turn : Nat → Option String) : List WindowSegment → Option (List (List Char))
  | [] => some []
  | segment :: rest => do
    let text ← turn segment.sourceTurnIndex
    let slice ← scalarSlice text segment.originalScalarStart segment.originalScalarEnd
    let later ← segmentWords turn rest
    return splitWords slice ++ later

/-- `window_text`. -/
def windowText (window : Window) (turn : Nat → Option String) : Option String := do
  let words ← segmentWords turn window.segments
  if words.length ≠ window.wordCount then none
  else return String.ofList ([' '].intercalate words)

/-- `window_digest`. -/
def windowDigest [TextDigest] (text : String) : String := TextDigest.sha256 text

end CorpusWindow

end YawnApp.SessionCore
