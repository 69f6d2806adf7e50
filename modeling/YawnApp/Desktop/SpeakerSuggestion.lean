import Mathlib.Data.Finset.Basic
import YawnApp.Foundation.Spans
import YawnApp.Worker.PythonText

set_option autoImplicit false

/-!
# Reading speaker suggestions (`speaker_suggestion.rs`)

The desktop checks a suggestion document against the transcript that is open and projects
it to its microphone turns.  Those come from the projection of the transcript in `main.rs`,
which shows a withheld turn without its speaker.

A `BTreeSet` of names is its sorted list.
-/

namespace YawnApp.Desktop

open YawnApp.Foundation YawnApp.SessionCore YawnApp.Worker

namespace SpeakerSuggestion

/-! ## Fields -/

def numberField (fs : List (String × Value)) (name : String) : Option ℚ :=
  (fieldOf fs name).bind Value.asNumber

/-- An `Option` number that may be missing. -/
def optionalNumber (fs : List (String × Value)) (name : String) : Option (Option ℚ) :=
  match fieldOf fs name with
  | none => some none
  | some .null => some none
  | some v => v.asNumber.map some

/-- A field that is a list. -/
def listField {α : Type} (read : Value → Option α) (fs : List (String × Value)) (name : String) :
    Option (List α) :=
  match fieldOf fs name with
  | some (.array items) => items.mapM read
  | _ => none

/-! ## The projection of a transcript -/

def maxTranscriptTurns : Nat := 20000

structure TranscriptInputTurn where
  start : ℚ
  stop : ℚ
  speaker : Option String
  text : String
  gated : Option Bool
  gateScore : Option ℚ
  gateReason : Option String
deriving DecidableEq

def TranscriptInputTurn.fromValue (v : Value) : Option TranscriptInputTurn := do
  let fs ← closedFields
    ["start", "end", "speaker", "text", "gated", "gate_score", "gate_reason"] v
  return ⟨← numberField fs "start", ← numberField fs "end", ← optionalField fs "speaker",
    ← requiredField fs "text", ← optionalField fs "gated", ← optionalNumber fs "gate_score",
    ← optionalField fs "gate_reason"⟩

/-- What is read of the report of the voice check; it has other fields. -/
structure VoiceprintReport where
  applied : Option Bool
  persistentOther : Option Bool
  rejectedSeconds : Option ℚ
  coherentShare : Option ℚ
  measuredFrr : Option ℚ
  nSittings : Option UInt32
deriving DecidableEq

def voiceprintNames : List String :=
  ["applied", "persistent_other", "rejected_seconds", "coherent_share", "measured_frr",
    "n_sittings"]

/-- A `bool` with a default: it may be missing, and not `null`. -/
def defaultedBool (fs : List (String × Value)) (name : String) : Option (Option Bool) :=
  match fieldOf fs name with
  | none => some none
  | some (.bool b) => some (some b)
  | some _ => none

def VoiceprintReport.fromValue : Value → Option VoiceprintReport
  | .object fs =>
    if ((fs.map Prod.fst).filter (· ∈ voiceprintNames)).Nodup then do
      return ⟨← defaultedBool fs "applied", ← defaultedBool fs "persistent_other",
        ← optionalNumber fs "rejected_seconds", ← optionalNumber fs "coherent_share",
        ← optionalNumber fs "measured_frr", ← optionalField fs "n_sittings"⟩
    else none
  | _ => none

structure TranscriptDocument where
  schema : String
  attribution : String
  voiceprint : Option VoiceprintReport
  turns : List TranscriptInputTurn
deriving DecidableEq

def TranscriptDocument.fromValue (v : Value) : Option TranscriptDocument := do
  let fs ← closedFields
    ["schema", "source", "attribution", "bleed", "voiceprint", "capture_health", "turns"] v
  let schema ← requiredField fs "schema"
  let _source : String ← requiredField fs "source"
  let attribution ← requiredField fs "attribution"
  let voiceprint ← match fieldOf fs "voiceprint" with
    | none | some .null => some none
    | some report => (VoiceprintReport.fromValue report).map some
  let _captureHealth ← fieldOf fs "capture_health"
  return ⟨schema, attribution, voiceprint, ← listField TranscriptInputTurn.fromValue fs "turns"⟩

structure TranscriptTurn where
  sourceTurnIndex : UInt32
  sourceSpeaker : Option String
  speaker : Option String
  start : ℚ
  stop : ℚ
  text : String
  withheld : Bool
deriving DecidableEq

/-- The refusal of a turn. -/
def TranscriptInputTurn.invalid (turn : TranscriptInputTurn) (unattributed : Bool) : Bool :=
  turn.start < 0 || turn.stop < turn.start || turn.text.utf8ByteSize > 100000 ||
    turn.speaker.any (fun speaker => speaker.utf8ByteSize > 256) ||
    (!unattributed && turn.speaker.any fun speaker => speaker ∉ ["Me", "Them"]) ||
    ((turn.gateScore.isSome || turn.gateReason.isSome) && turn.gated != some true) ||
    (!unattributed && turn.gated == some true && turn.speaker != some "Me")

/-- The body of the loop of `parse_transcript_projection_with`. -/
def projectTurn (unattributed : Bool) (restored : Finset UInt32) (index : Nat)
    (turn : TranscriptInputTurn) : Except String TranscriptTurn := do
  let sourceTurnIndex := UInt32.ofNat index
  refuseIf (turn.invalid unattributed = true) "transcript turn is invalid"
  refuseIf (sourceTurnIndex ∈ restored ∧ turn.gated ≠ some true)
    "a restored turn is not withheld in the base transcript"
  if turn.gated = some true ∧ sourceTurnIndex ∉ restored then
    return ⟨sourceTurnIndex, none, none, turn.start, turn.stop, "", true⟩
  else
    let sourceSpeaker := if unattributed then none else turn.speaker
    return ⟨sourceTurnIndex, sourceSpeaker, sourceSpeaker, turn.start, turn.stop, turn.text, false⟩

def projectTurns (unattributed : Bool) (restored : Finset UInt32) :
    Nat → List TranscriptInputTurn → Except String (List TranscriptTurn)
  | _, [] => .ok []
  | index, turn :: rest => do
    let projected ← projectTurn unattributed restored index turn
    let turns ← projectTurns unattributed restored (index + 1) rest
    return projected :: turns

/-- `parse_transcript_projection_with`, without its warnings; the text of the first
refusal is that of the JSON reader. -/
def parseTranscriptProjectionWith {B : Type} [Platform B] (bytes : B) (restored : Finset UInt32) :
    Except String (List TranscriptTurn) := do
  let document ← orRefuse ((JsonText.readText bytes).bind TranscriptDocument.fromValue)
    "transcript is not readable"
  refuseIf (document.schema ≠ "capture-transcript/1" ∨
      document.attribution ∉ ["channel", "none"] ∨ document.turns.length > maxTranscriptTurns)
    "transcript presentation schema is invalid"
  projectTurns (document.attribution == "none") restored 0 document.turns

structure TranscriptMicTurn where
  sourceTurnIndex : UInt32
  start : ℚ
  stop : ℚ
  isMicrophoneTurn : Bool
deriving DecidableEq

/-- The turns that are handed to `read_current`. -/
def micTurns (turns : List TranscriptTurn) : List TranscriptMicTurn :=
  turns.map fun turn =>
    ⟨turn.sourceTurnIndex, turn.start, turn.stop, turn.sourceSpeaker == some "Me"⟩

/-! ## The stored document -/

def maxIntervals : Nat := 50000

def maxClusters : Nat := 8

def maxDurationSeconds : ℚ := 24 * 60 * 60

def presenceRoundingTolerance : ℚ := 5 / 10000000

structure StoredSource where
  transcriptSha256 : String
  microphoneAudioSha256 : String
  diarizerExecutableSha256 : String
  diarizerModelSha256 : String
  diarizerOutputSha256 : String
deriving DecidableEq

structure StoredPresence where
  cluster : String
  seconds : ℚ
deriving DecidableEq

structure StoredTurnSuggestion where
  sourceTurnIndex : UInt32
  speakerPresence : List StoredPresence
deriving DecidableEq

/-- A span with its cluster. -/
abbrev StoredInterval := Spans.Span String

structure StoredSuggestion where
  schema : String
  status : String
  source : StoredSource
  durationSeconds : ℚ
  anonymousClusterCount : UInt64
  intervals : List StoredInterval
  micTurnSuggestions : List StoredTurnSuggestion
deriving DecidableEq

def StoredSource.fromValue (v : Value) : Option StoredSource := do
  let fs ← closedFields ["transcript_sha256", "microphone_audio_sha256",
    "diarizer_executable_sha256", "diarizer_model_sha256", "diarizer_output_sha256"] v
  return ⟨← requiredField fs "transcript_sha256", ← requiredField fs "microphone_audio_sha256",
    ← requiredField fs "diarizer_executable_sha256", ← requiredField fs "diarizer_model_sha256",
    ← requiredField fs "diarizer_output_sha256"⟩

def StoredPresence.fromValue (v : Value) : Option StoredPresence := do
  let fs ← closedFields ["cluster", "seconds"] v
  return ⟨← requiredField fs "cluster", ← numberField fs "seconds"⟩

def StoredTurnSuggestion.fromValue (v : Value) : Option StoredTurnSuggestion := do
  let fs ← closedFields ["source_turn_index", "speaker_presence"] v
  return ⟨← requiredField fs "source_turn_index",
    ← listField StoredPresence.fromValue fs "speaker_presence"⟩

def storedIntervalFromValue (v : Value) : Option StoredInterval := do
  let fs ← closedFields ["start", "end", "cluster"] v
  return ⟨← numberField fs "start", ← numberField fs "end", ← requiredField fs "cluster"⟩

def StoredSuggestion.fromValue (v : Value) : Option StoredSuggestion := do
  let fs ← closedFields ["schema", "status", "source", "duration_seconds",
    "anonymous_cluster_count", "intervals", "mic_turn_suggestions"] v
  return ⟨← requiredField fs "schema", ← requiredField fs "status",
    ← (fieldOf fs "source").bind StoredSource.fromValue, ← numberField fs "duration_seconds",
    ← requiredField fs "anonymous_cluster_count",
    ← listField storedIntervalFromValue fs "intervals",
    ← listField StoredTurnSuggestion.fromValue fs "mic_turn_suggestions"⟩

/-! ## The check -/

/-- `str::parse::<usize>` -/
def parseUsize (text : List Char) : Option Nat :=
  let digits : List Char := match text with
    | '+' :: rest => rest
    | _ => text
  let number : Nat := digits.foldl (fun n c => 10 * n + (c.toNat - '0'.toNat)) 0
  if digits ≠ [] ∧ digits.all Char.isDigit = true ∧ number < 2 ^ 64 then some number else none

/-- The text of `cluster-`. -/
def clusterPrefix : List Char := "cluster-".toList

/-- `valid_cluster` -/
def validCluster (value : String) : Bool :=
  clusterPrefix.isPrefixOf value.toList &&
    (parseUsize (value.toList.drop clusterPrefix.length)).any fun number =>
      1 ≤ number && number ≤ maxClusters

/-- `union_seconds` -/
def unionSeconds (ranges : List (ℚ × ℚ)) : ℚ := Spans.unionLength ranges

/-- What an interval has of a turn, when it has time of it. -/
def clip (turn : TranscriptMicTurn) (interval : StoredInterval) : Option StoredInterval :=
  let start := max interval.start turn.start
  let stop := min interval.stop turn.stop
  if stop > start then some ⟨start, stop, interval.label⟩ else none

/-- `intervals_overlap_in_turn` -/
def intervalsOverlapInTurn (intervals : List StoredInterval) (turn : TranscriptMicTurn) : Bool :=
  Spans.clashFrom []
    ((intervals.filterMap (clip turn)).insertionSort fun left right => left.start ≤ right.start)

structure SuggestionTurn where
  sourceTurnIndex : UInt32
  clusters : List String
  hasOverlap : Bool
deriving DecidableEq

/-- The checks before the clusters are counted. -/
def headerHolds (document : StoredSuggestion) (transcriptSha256 microphoneAudioSha256 : String) :
    Bool :=
  document.schema == "speaker-diarization-suggestion/1" && validSha256 transcriptSha256 &&
    validSha256 microphoneAudioSha256 &&
    document.source.transcriptSha256 == transcriptSha256 &&
    document.source.microphoneAudioSha256 == microphoneAudioSha256 &&
    [document.source.diarizerExecutableSha256, document.source.diarizerModelSha256,
      document.source.diarizerOutputSha256].all validSha256 &&
    decide (0 ≤ document.durationSeconds) && decide (document.durationSeconds ≤ maxDurationSeconds) &&
    decide (document.durationSeconds ≠ 0) && decide (document.intervals.length ≤ maxIntervals) &&
    decide (document.anonymousClusterCount.toNat ≤ maxClusters) &&
    decide (document.status ∈ ["review-required", "no-speakers"])

def intervalHolds (duration : ℚ) (interval : StoredInterval) : Bool :=
  decide (0 ≤ interval.start) && decide (interval.start < interval.stop) &&
    decide (interval.start < duration) && decide (interval.stop ≤ duration) &&
    validCluster interval.label

/-- The clusters of the intervals. -/
def clustersOf (intervals : List StoredInterval) : List String :=
  sortedSet (intervals.map Spans.Span.label)

def clustersHold (document : StoredSuggestion) : Bool :=
  let clusters := clustersOf document.intervals
  decide (clusters.length = document.anonymousClusterCount.toNat) &&
    decide (clusters.length ≤ maxClusters) &&
    clusters.zipIdx.all (fun (cluster, index) => cluster == "cluster-" ++ toString (index + 1)) &&
    decide (document.status = "review-required" ↔ clusters ≠ [])

/-- The turns a suggestion may be about. -/
def usable (turn : TranscriptMicTurn) : Bool :=
  turn.isMicrophoneTurn && decide (0 ≤ turn.start) && decide (turn.start < turn.stop)

/-- The last of the usable turns of an index, as a map that was collected keeps it. -/
def microphoneTurn (turns : List TranscriptMicTurn) (index : UInt32) : Option TranscriptMicTurn :=
  (turns.filter fun turn => usable turn && turn.sourceTurnIndex == index).getLast?

/-- The number of the indices of the usable turns. -/
def microphoneTurnCount (turns : List TranscriptMicTurn) : Nat :=
  ((turns.filter usable).map TranscriptMicTurn.sourceTurnIndex).dedup.length

/-- The seconds of each cluster: every one named once, known and positive. -/
def readPresence (clusters : List String) :
    List (String × ℚ) → List StoredPresence → Option (List (String × ℚ))
  | actual, [] => some actual
  | actual, presence :: rest =>
    if presence.cluster ∉ clusters ∨ presence.seconds ≤ 0 ∨
        presence.cluster ∈ actual.map Prod.fst then none
    else readPresence clusters (actual ++ [(presence.cluster, presence.seconds)]) rest

/-- The ranges that the intervals of a cluster have of a turn. -/
def expectedRanges (clipped : List StoredInterval) (cluster : String) : List (ℚ × ℚ) :=
  (clipped.filter fun interval => interval.label = cluster).map fun interval =>
    (interval.start, interval.stop)

/-- The seconds of every cluster that the intervals have in the turn are as expected. -/
def secondsHold (clipped : List StoredInterval) (actual : List (String × ℚ)) : Bool :=
  let expected := clustersOf clipped
  decide (actual.length = expected.length) && expected.all fun cluster =>
    (actual.lookup cluster).any fun seconds =>
      decide (|unionSeconds (expectedRanges clipped cluster) - seconds| ≤ presenceRoundingTolerance)

/-- The body of the loop over the suggestions, with the turns seen. -/
def projectSuggestion (document : StoredSuggestion) (turns : List TranscriptMicTurn)
    (seen : List UInt32) (suggestion : StoredTurnSuggestion) : Option SuggestionTurn := do
  let turn ← microphoneTurn turns suggestion.sourceTurnIndex
  let clusters := clustersOf document.intervals
  if suggestion.sourceTurnIndex ∈ seen ∨ suggestion.speakerPresence.length > clusters.length then
    none
  else
    let clipped := document.intervals.filterMap (clip turn)
    let actual ← readPresence clusters [] suggestion.speakerPresence
    if secondsHold clipped actual then
      return ⟨suggestion.sourceTurnIndex, sortedSet (actual.map Prod.fst),
        intervalsOverlapInTurn document.intervals turn⟩
    else none

def projectSuggestions (document : StoredSuggestion) (turns : List TranscriptMicTurn) :
    List UInt32 → List StoredTurnSuggestion → Option (List SuggestionTurn)
  | _, [] => some []
  | seen, suggestion :: rest => do
    let projected ← projectSuggestion document turns seen suggestion
    let others ← projectSuggestions document turns (suggestion.sourceTurnIndex :: seen) rest
    return projected :: others

/-- `validate_and_project` -/
def validateAndProject (document : StoredSuggestion) (transcriptSha256 microphoneAudioSha256 : String)
    (turns : List TranscriptMicTurn) : Option (Bool × List SuggestionTurn) :=
  if headerHolds document transcriptSha256 microphoneAudioSha256 &&
      document.intervals.all (intervalHolds document.durationSeconds) && clustersHold document &&
      decide (microphoneTurnCount turns = (turns.filter (·.isMicrophoneTurn)).length) &&
      decide (document.micTurnSuggestions.length = microphoneTurnCount turns) then do
    let projected ← projectSuggestions document turns [] document.micTurnSuggestions
    if (document.micTurnSuggestions.map (·.sourceTurnIndex)).dedup.length = microphoneTurnCount turns
    then return (document.status == "review-required", projected)
    else none
  else none

end SpeakerSuggestion

end YawnApp.Desktop
