import Mathlib.Algebra.Order.Ring.Rat
import YawnApp.Foundation.Words
import YawnApp.Worker.PythonText

set_option autoImplicit false

/-!
# Native speech results (`speech_results.py`)

The receipts of the two native speech engines become turns of a transcript or are refused.
Times are exact rationals; the number of a recording's duration is finite.
-/

namespace YawnApp.Worker

open YawnApp.Foundation

namespace SpeechResults

/-- What `_validate_run` raises. -/
inductive Raised where
  | speechResultRefused (message : String)
  | assertionError (message : String)
deriving DecidableEq, Repr

def timingToleranceSeconds : ℚ := 1 / 1000000

/-! ## Text -/

/-- `str.isspace` of one character, which is also what `\s` matches. -/
def isSpace (c : Char) : Bool :=
  (9 ≤ c.toNat && c.toNat ≤ 13) || (0x1C ≤ c.toNat && c.toNat ≤ 0x20) || c.toNat == 0x85 ||
    c.toNat == 0xA0 || c.toNat == 0x1680 || (0x2000 ≤ c.toNat && c.toNat ≤ 0x200A) ||
    c.toNat == 0x2028 || c.toNat == 0x2029 || c.toNat == 0x202F || c.toNat == 0x205F ||
    c.toNat == 0x3000

/-- `not text.strip()` -/
def isBlank (text : String) : Bool := text.toList.all isSpace

/-- `_tokens` -/
def tokens (text : String) : List String :=
  (words isSpace text.toList).map fun word => String.ofList word.2

/-- The quotation marks that may follow the end of a sentence. -/
def isClosingQuote (c : Char) : Bool := c == '"' || c == '\u201d' || c == '\u2019'

/-- `[.!?]["”’]*` at the end of the letters. -/
def closesSentence (letters : List Char) : Bool :=
  match letters.reverse.dropWhile isClosingQuote with
  | [] => false
  | c :: _ => c == '.' || c == '!' || c == '?'

/-- `re.search` for a terminal mark: `$` stands at the end and before a last line feed. -/
def endsSentence (text : String) : Bool :=
  closesSentence text.toList ||
    (text.toList.getLast? == some '\n' && closesSentence text.toList.dropLast)

/-! ## Timed items -/

/-- A dictionary with the keys `start`, `end` and `text`. -/
structure Item where
  start : ℚ
  stop : ℚ
  text : String
deriving DecidableEq, Repr

def Item.document (item : Item) : Value :=
  .object [("start", .decimal item.start), ("end", .decimal item.stop), ("text", .string item.text)]

def Item.tokens (item : Item) : List String := SpeechResults.tokens item.text

/-- `_number` -/
def number (value : Option Value) (description : String) : Except Raised ℚ :=
  orRefuse (value.bind Value.asNumber)
    (.speechResultRefused (description ++ " must be a finite number"))

/-- The body of the loop of `_timed_items`; `previous` has the bounds of the item before. -/
def timedItem (name : String) (durationSeconds : ℚ) (previous : Option Item) (item : Value) :
    Except Raised Item := do
  refuseIf (item.isObject = false) (.speechResultRefused (name ++ " must be an object"))
  let text ← orRefuse ((item.get "text").bind Value.asStr)
    (.speechResultRefused (name ++ " has no text"))
  refuseIf (isBlank text = true) (.speechResultRefused (name ++ " has no text"))
  let start ← number (item.get "start") (name ++ ".start")
  let stop ← number (item.get "end") (name ++ ".end")
  refuseIf (stop ≤ start) (.speechResultRefused (name ++ " has unordered bounds"))
  refuseIf (start < -timingToleranceSeconds ∨ stop > durationSeconds + timingToleranceSeconds)
    (.speechResultRefused (name ++ " is outside recording bounds"))
  refuseIf (∃ before ∈ previous, start + timingToleranceSeconds < before.start ∨
      stop + timingToleranceSeconds < before.stop)
    (.speechResultRefused (name ++ " is non-monotonic with the preceding item"))
  return ⟨start, stop, text⟩

def timedItemsFrom (description : String) (durationSeconds : ℚ) :
    Nat → Option Item → List Value → Except Raised (List Item)
  | _, _, [] => .ok []
  | index, previous, raw :: rest => do
    let item ← timedItem (description ++ "[" ++ toString index ++ "]") durationSeconds previous raw
    let items ← timedItemsFrom description durationSeconds (index + 1) (some item) rest
    return item :: items

/-- `_timed_items` -/
def timedItems (value : Option Value) (description : String) (durationSeconds : ℚ) :
    Except Raised (List Item) := do
  let items ← orRefuse (value.bind Value.asArray)
    (.speechResultRefused (description ++ " must be a list"))
  timedItemsFrom description durationSeconds 0 none items

/-- `_require_full_text_coverage` -/
def requireFullTextCoverage (runText : String) (items : List Item) (description : String) :
    Except Raised Unit :=
  refuseIf (tokens runText ≠ items.flatMap Item.tokens)
    (.speechResultRefused (description ++ " do not cover the full native run text"))

/-! ## Parakeet's words in groups -/

/-- A group ends before a word that starts too late or stretches it too far. -/
def closesBefore (group word : Item) : Bool :=
  word.start - group.stop > 1 || word.stop - group.start > 15

/-- The group that a word opens or is added to. -/
def extend (current : Option Item) (word : Item) : Item :=
  match current with
  | none => word
  | some group => { group with text := group.text ++ " " ++ word.text, stop := word.stop }

/-- The loop of `_group_parakeet_words`. -/
def groupParakeetFrom : Option Item → List Item → List Item
  | current, [] => current.toList
  | current, word :: rest =>
    let closed := current.filter fun group => closesBefore group word
    let group := extend (current.filter fun group => !closesBefore group word) word
    closed.toList ++
      if endsSentence word.text then group :: groupParakeetFrom none rest
      else groupParakeetFrom (some group) rest

/-- `_group_parakeet_words` -/
def groupParakeetWords (words : List Item) : List Item := groupParakeetFrom none words

/-! ## Apple's utterances -/

/-- What `_require_apple_utterance_alignment` says of the utterance of an index. -/
def utteranceName (index : Nat) : String := "runs Apple utterances[" ++ toString index ++ "]"

/-- The inner loop of `_require_apple_utterance_alignment`: the tokens matched so far, and
the segments from `segment_index` on.  It gives the segments that are left. -/
def matchUtterance (index : Nat) (utterance : Item) :
    List String → List Item → Except Raised (List Item)
  | matched, segments =>
    if matched.length < utterance.tokens.length then
      match segments with
      | [] => .error (.speechResultRefused
          (utteranceName index ++ " lack corresponding timed segments"))
      | segment :: rest => do
        refuseIf ((utterance.tokens.drop matched.length).take segment.tokens.length ≠ segment.tokens)
          (.speechResultRefused (utteranceName index ++ " do not align with timed segments"))
        refuseIf (segment.start < utterance.start - timingToleranceSeconds ∨
            segment.stop > utterance.stop + timingToleranceSeconds)
          (.speechResultRefused (utteranceName index ++ " do not enclose timed segments"))
        matchUtterance index utterance (matched ++ segment.tokens) rest
    else do
      refuseIf (matched ≠ utterance.tokens)
        (.speechResultRefused (utteranceName index ++ " split a timed segment"))
      return segments

def matchUtterances : Nat → List Item → List Item → Except Raised Unit
  | _, segments, [] =>
    refuseIf (segments ≠ []) (.speechResultRefused "runs Apple timed segments lack a final utterance")
  | index, segments, utterance :: rest => do
    let segments ← matchUtterance index utterance [] segments
    matchUtterances (index + 1) segments rest

/-- `_require_apple_utterance_alignment` -/
def requireAppleUtteranceAlignment (segments utterances : List Item) : Except Raised Unit :=
  matchUtterances 0 segments utterances

/-! ## A run -/

/-- An integer, no truth value, and zero. -/
def isZero : Option Value → Bool
  | some (.natural n) => n == 0
  | _ => false

/-- What `_validate_run` calls the run of an index. -/
def runName (index : Nat) : String := "runs[" ++ toString index ++ "]"

/-- `_validate_run` -/
def validateRun (run : Value) (engine : String) (durationSeconds : ℚ) (index : Nat) :
    Except Raised (List Item) := do
  refuseIf (run.isObject = false) (.speechResultRefused (runName index ++ " must be an object"))
  refuseIf (isZero (run.get "timing_issue_count") = false)
    (.speechResultRefused (runName index ++ " reports unavailable or invalid timing"))
  let text ← orRefuse ((run.get "text").bind Value.asStr)
    (.speechResultRefused (runName index ++ " has no text"))
  let segments ← timedItems (run.get "segments") (runName index ++ ".segments") durationSeconds
  requireFullTextCoverage text segments (runName index ++ ".segments")
  if engine = "apple" then do
    let utterances ← timedItems (run.get "utterances") (runName index ++ ".utterances") durationSeconds
    requireFullTextCoverage text utterances (runName index ++ ".utterances")
    requireAppleUtteranceAlignment segments utterances
    return utterances
  else if engine = "parakeet" then
    timedItems (some (.array ((groupParakeetWords segments).map Item.document)))
      (runName index ++ ".grouped_segments") durationSeconds
  else .error (.assertionError ("unexpected validated engine " ++ engine))

/-- The runs of `validated_native_segments`, which numbers them. -/
def validateRunsFrom (engine : String) (durationSeconds : ℚ) :
    Nat → List Value → Except Raised (List (List Item))
  | _, [] => .ok []
  | index, run :: rest => do
    let turns ← validateRun run engine durationSeconds index
    let adapted ← validateRunsFrom engine durationSeconds (index + 1) rest
    return turns :: adapted

/-- `validated_native_segments`; `repr` writes a value into a message. -/
def validatedNativeSegments (repr : Option Value → String) (result : Value) (engine : String)
    (durationSeconds : ℚ) : Except Raised (List Item) := do
  refuseIf (durationSeconds ≤ 0) (.speechResultRefused "recording duration must be positive")
  refuseIf (engine ≠ "apple" ∧ engine ≠ "parakeet")
    (.speechResultRefused "native engine must be apple or parakeet")
  refuseIf (result.isObject = false) (.speechResultRefused "native result must be an object")
  refuseIf ((result.get "schema").bind Value.asStr ≠ some "speech-engine-result/1")
    (.speechResultRefused "native result schema is not speech-engine-result/1")
  refuseIf ((result.get "status").bind Value.asStr ≠ some "ok")
    (.speechResultRefused "native result is not successful")
  refuseIf ((result.get "engine").bind Value.asStr ≠ some engine)
    (.speechResultRefused ("native result engine " ++ repr (result.get "engine") ++
      " does not match " ++ repr (some (.string engine))))
  match (result.get "runs").bind Value.asArray with
  | none | some [] => .error (.speechResultRefused "native result has no runs")
  | some (run :: rest) => do
    let turns ← validateRun run engine durationSeconds 0
    -- the other runs are checked before the turns of the first are used
    let _ ← validateRunsFrom engine durationSeconds 1 rest
    return turns

end SpeechResults

end YawnApp.Worker
