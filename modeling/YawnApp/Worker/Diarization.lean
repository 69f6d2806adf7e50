import Mathlib.Data.Rat.Floor
import YawnApp.Foundation.Spans
import YawnApp.Worker.PythonText

set_option autoImplicit false

/-!
# Speaker suggestions (`diarization.py`)

The worker reads the segments of a diarizer, names their speakers `cluster-1` and on, and
writes how long each cluster is present in each microphone turn of a base transcript.
Numbers are exact rationals; `round` to six digits rounds halves to even.

Of `speaker_suggest` the running of the diarizer is left out: its output is given.
-/

namespace YawnApp.Worker

open YawnApp.Foundation YawnApp.SessionCore List

namespace Diarization

/-! ## Numbers -/

def maxDurationSeconds : ℚ := 24 * 60 * 60

def maxIntervals : Nat := 50000

def maxSpeakers : Nat := 8

def maxOutputBytes : Nat := 8 * 1024 * 1024

def maxEndRoundingSeconds : ℚ := 1 / 100

/-- `_finite_number` -/
def finiteNumber (value : Option Value) (label : String) : Except String ℚ :=
  orRefuse (value.bind Value.asNumber) (label ++ " must be a finite number")

/-- `round` to an integer, halves to even. -/
def roundHalfEven (q : ℚ) : ℤ :=
  if Int.fract q < 1 / 2 then ⌊q⌋
  else if Int.fract q > 1 / 2 then ⌊q⌋ + 1
  else if ⌊q⌋ % 2 = 0 then ⌊q⌋ else ⌊q⌋ + 1

/-- `round(seconds, 6)` -/
def round6 (seconds : ℚ) : ℚ := roundHalfEven (seconds * 1000000) / 1000000

/-- The end of `_validated_wav`, of a microphone WAV with so many frames. -/
def validatedDuration (frames : Nat) : Except String ℚ := do
  refuseIf (frames = 0) "microphone audio is truncated or empty"
  refuseIf ((frames : ℚ) / 16000 > maxDurationSeconds)
    "microphone audio exceeds the diarization duration limit"
  return frames / 16000

/-! ## The output of the diarizer -/

/-- A span of the speaker or of the cluster that is its label. -/
abbrev Interval := Spans.Span String

/-- `_cluster_key` -/
def clusterKey (value : Option Value) : Except String String :=
  match value with
  | some (.natural number) =>
    if number < 1 then .error "diarizer segment speaker is invalid"
    else .ok ("integer:" ++ toString number)
  | _ => .error "diarizer segment speaker is invalid"

/-- The body of the loop of `parse_diarizer_output`. -/
def parseSegment (duration : ℚ) (index : Nat) (raw : Value) : Except String Interval :=
  match raw with
  | .object fields => do
    let name := "diarizer segment " ++ toString index
    refuseIf (¬ keysAre fields ["start", "end", "speaker"]) (name ++ " has an invalid shape")
    let start ← finiteNumber (raw.get "start") (name ++ " start")
    let stop ← finiteNumber (raw.get "end") (name ++ " end")
    refuseIf (start < 0 ∨ stop ≤ start ∨ start ≥ duration ∨ stop > duration + maxEndRoundingSeconds)
      (name ++ " is outside microphone bounds")
    let speaker ← clusterKey (raw.get "speaker")
    return ⟨start, min stop duration, speaker⟩
  | _ => .error ("diarizer segment " ++ toString index ++ " has an invalid shape")

def parseSegments (duration : ℚ) : Nat → List Value → Except String (List Interval)
  | _, [] => .ok []
  | index, raw :: rest => do
    let segment ← parseSegment duration index raw
    let segments ← parseSegments duration (index + 1) rest
    return segment :: segments

/-- The label of a key among the keys. -/
def clusterLabel (keys : List String) (key : String) : String :=
  "cluster-" ++ toString (keys.idxOf key + 1)

/-- `parse_diarizer_output`, of the document that the output is. -/
def parseDiarizerDocument (document : Value) (duration : ℚ) : Except String (List Interval) :=
  match document, document.get "file", document.get "segments" with
  | .object fields, some (.string _), some (.array segments) => do
    refuseIf (¬ keysAre fields ["file", "segments"])
      "diarizer output does not match the observed JSON shape"
    refuseIf (segments.length > maxIntervals) "diarizer output has too many segments"
    let parsed ← parseSegments duration 0 segments
    let keys := sortedSet (parsed.map Spans.Span.label)
    refuseIf (keys.length > maxSpeakers) "diarizer output has too many anonymous clusters"
    return parsed.map fun segment => { segment with label := clusterLabel keys segment.label }
  | _, _, _ => .error "diarizer output does not match the observed JSON shape"

/-! ## The microphone turns -/

/-- `_union_seconds` -/
def unionSeconds (intervals : List (ℚ × ℚ)) : ℚ := Spans.unionLength intervals

structure Presence where
  cluster : String
  seconds : ℚ
deriving DecidableEq

structure TurnSuggestion where
  sourceTurnIndex : Nat
  speakerPresence : List Presence
deriving DecidableEq

/-- What an interval has of a turn, and its cluster. -/
def overlapOf (low high : ℚ) (interval : Interval) : Option (String × (ℚ × ℚ)) :=
  let overlapLow := max low interval.start
  let overlapHigh := min high interval.stop
  if overlapHigh > overlapLow then some (interval.label, (overlapLow, overlapHigh)) else none

/-- The ranges that were appended to the list of a cluster. -/
def rangesOf (overlaps : List (String × (ℚ × ℚ))) (cluster : String) : List (ℚ × ℚ) :=
  (overlaps.filter fun overlap => overlap.1 = cluster).map Prod.snd

/-- The presence of each cluster, sorted. -/
def presencesOf (overlaps : List (String × (ℚ × ℚ))) : List Presence :=
  (sortedSet (overlaps.map Prod.fst)).map fun cluster =>
    ⟨cluster, round6 (unionSeconds (rangesOf overlaps cluster))⟩

/-- The body of the loop of `match_mic_turns`. -/
def matchMicTurn (intervals : List Interval) (duration : ℚ) (index : Nat) (turn : Value) :
    Except String (Option TurnSuggestion) := do
  let name := "transcript turn " ++ toString index
  refuseIf (¬ turn.isObject) (name ++ " is invalid")
  if (turn.get "speaker").bind Value.asStr ≠ some "Me" then return none
  else
    let start ← finiteNumber (turn.get "start") (name ++ " start")
    let stop ← finiteNumber (turn.get "end") (name ++ " end")
    refuseIf (start < 0 ∨ stop ≤ start) (name ++ " has invalid timing")
    let low := max 0 start
    let high := min duration stop
    let overlaps := if high > low then intervals.filterMap (overlapOf low high) else []
    return some ⟨index, presencesOf overlaps⟩

def matchMicTurns (intervals : List Interval) (duration : ℚ) :
    Nat → List Value → Except String (List TurnSuggestion)
  | _, [] => .ok []
  | index, turn :: rest => do
    let suggestion ← matchMicTurn intervals duration index turn
    let suggestions ← matchMicTurns intervals duration (index + 1) rest
    return suggestion.toList ++ suggestions

/-! ## The document -/

section Document

variable {B : Type} [PythonText B]

/-- What a run of `speaker_suggest` is about. -/
structure Suggested (B : Type) where
  sourceTranscriptSha256 : String
  microphoneAudioSha256 : String
  transcript : B
  microphone : B
  frames : Nat
  executable : B
  model : B
  output : B

/-- `_read_transcript`, after the file is read; the parser of the notes looks at the bytes
too. -/
def readTranscript (load : B → Except String Unit) (transcript : B) (digest : String) :
    Except String (List Value) := do
  refuseIf (Platform.sha256 transcript ≠ digest)
    "transcript revision changed from its content address"
  let document ← orRefuse (PythonText.loads transcript) "transcript revision is not valid UTF-8 JSON"
  refuseIf ((document.get "schema").bind Value.asStr ≠ some "capture-transcript/1")
    "speaker suggestions require an immutable base transcript"
  refuseIf ((document.get "attribution").bind Value.asStr ≠ some "channel")
    "transcript does not identify microphone turns"
  let turns ← orRefuse ((document.get "turns").bind Value.asArray) "transcript has no turn list"
  load transcript
  return turns

/-- `parse_diarizer_output` -/
def parseDiarizerOutput (output : B) (duration : ℚ) : Except String (List Interval) := do
  refuseIf (ByteString.size output > maxOutputBytes) "diarizer output exceeds the bounded read limit"
  let document ← orRefuse (PythonText.loads output) "diarizer output is not valid UTF-8 JSON"
  parseDiarizerDocument document duration

def intervalValue (interval : Interval) : Value :=
  .object [("start", .decimal interval.start), ("end", .decimal interval.stop),
    ("cluster", .string interval.label)]

def presenceValue (presence : Presence) : Value :=
  .object [("cluster", .string presence.cluster), ("seconds", .decimal presence.seconds)]

def turnValue (turn : TurnSuggestion) : Value :=
  .object [("source_turn_index", .natural turn.sourceTurnIndex),
    ("speaker_presence", .array (turn.speakerPresence.map presenceValue))]

/-- The document of the sidecar. -/
def suggestionValue (suggested : Suggested B) (duration : ℚ) (intervals : List Interval)
    (turns : List TurnSuggestion) : Value :=
  .object [("schema", .string "speaker-diarization-suggestion/1"),
    ("status", .string (if intervals = [] then "no-speakers" else "review-required")),
    ("source", .object [("transcript_sha256", .string suggested.sourceTranscriptSha256),
      ("microphone_audio_sha256", .string (Platform.sha256 suggested.microphone)),
      ("diarizer_executable_sha256", .string (Platform.sha256 suggested.executable)),
      ("diarizer_model_sha256", .string (Platform.sha256 suggested.model)),
      ("diarizer_output_sha256", .string (Platform.sha256 suggested.output))]),
    ("duration_seconds", .decimal duration),
    ("anonymous_cluster_count", .natural (intervals.map Spans.Span.label).dedup.length),
    ("intervals", .array (intervals.map intervalValue)),
    ("mic_turn_suggestions", .array (turns.map turnValue))]

/-- `speaker_suggest`, up to the document it writes. -/
def speakerSuggest (load : B → Except String Unit) (suggested : Suggested B) :
    Except String Value := do
  refuseIf (¬ validSha256 suggested.sourceTranscriptSha256)
    "source_transcript_sha256 must be a lowercase SHA-256 digest"
  refuseIf (¬ validSha256 suggested.microphoneAudioSha256)
    "microphone_audio_sha256 must be a lowercase SHA-256 digest"
  let duration ← validatedDuration suggested.frames
  refuseIf (Platform.sha256 suggested.microphone ≠ suggested.microphoneAudioSha256)
    "microphone audio changed from its requested capture"
  let transcript ← readTranscript load suggested.transcript suggested.sourceTranscriptSha256
  let intervals ← parseDiarizerOutput suggested.output duration
  let turns ← matchMicTurns intervals duration 0 transcript
  return suggestionValue suggested duration intervals turns

end Document

/-! ## Rounding -/

theorem roundHalfEven_near (q : ℚ) : |q - roundHalfEven q| ≤ 1 / 2 := by
  have hfract := Int.self_sub_floor q
  have hnonneg := Int.fract_nonneg q
  have hlt := Int.fract_lt_one q
  unfold roundHalfEven
  rw [abs_le]
  split
  · constructor <;> linarith
  · split
    · push_cast
      constructor <;> linarith
    · split
      · constructor <;> linarith
      · push_cast
        constructor <;> linarith

/-- A positive number is rounded away when it is at most a half. -/
theorem roundHalfEven_pos_iff {q : ℚ} (hq : 0 ≤ q) : 0 < roundHalfEven q ↔ 1 / 2 < q := by
  constructor
  · intro hpos
    by_contra hle
    rw [not_lt] at hle
    have hfloor : ⌊q⌋ = 0 := Int.floor_eq_zero_iff.mpr ⟨hq, by linarith⟩
    have hfract : Int.fract q = q := Int.fract_eq_self.mpr ⟨hq, by linarith⟩
    unfold roundHalfEven at hpos
    rw [hfloor, hfract, if_neg (not_lt.mpr hle)] at hpos
    split at hpos <;> simp at hpos
  · intro hlt
    have hnear := (abs_le.mp (roundHalfEven_near q)).2
    have hpos : (0 : ℚ) < roundHalfEven q := by linarith
    exact_mod_cast hpos

theorem round6_near (seconds : ℚ) : |seconds - round6 seconds| ≤ 5 / 10000000 := by
  have hnear := abs_le.mp (roundHalfEven_near (seconds * 1000000))
  unfold round6
  rw [abs_le]
  constructor <;> linarith [hnear.1, hnear.2]

theorem round6_pos_iff {seconds : ℚ} (h : 0 ≤ seconds) :
    0 < round6 seconds ↔ 1 / 2000000 < seconds := by
  have hround := roundHalfEven_pos_iff (q := seconds * 1000000) (by linarith)
  unfold round6
  rw [div_pos_iff_of_pos_right (by norm_num), Int.cast_pos, hround]
  constructor <;> intro hlt <;> linarith

/-! ## What the parser admits -/

/-- A segment as the diarizer gives it. -/
def segmentOf (raw : Value) : Option Interval := do
  return ⟨← (raw.get "start").bind Value.asNumber, ← (raw.get "end").bind Value.asNumber,
    ← (clusterKey (raw.get "speaker")).toOption⟩

/-- The segments of an output of the diarizer. -/
def diarized (document : Value) : List Interval :=
  (((document.get "segments").bind Value.asArray).getD []).filterMap segmentOf

/-- A segment ends with the recording. -/
def within (duration : ℚ) (segment : Interval) : Interval :=
  { segment with stop := min segment.stop duration }

/-- Inside a recording. -/
structure Inside (duration : ℚ) (interval : Interval) : Prop where
  start_nonneg : 0 ≤ interval.start
  start_lt : interval.start < interval.stop
  stop_le : interval.stop ≤ duration

variable {duration : ℚ}

theorem parseSegment_eq_ok {index : Nat} {raw : Value} {segment : Interval}
    (h : parseSegment duration index raw = .ok segment) :
    ∃ given, segmentOf raw = some given ∧ segment = within duration given ∧
      Inside duration segment := by
  cases raw with
  | object =>
    simp only [parseSegment, finiteNumber, bind_eq_ok, orRefuse_eq_ok, refuseIf_eq_ok, not_or,
      not_lt, not_le] at h
    obtain ⟨_, -, start, hstart, stop, hstop, _, ⟨hpositive, hwidth, hbefore, -⟩, speaker,
      hspeaker, heq⟩ := h
    cases heq
    refine ⟨⟨start, stop, speaker⟩, ?_, rfl, hpositive, lt_min hwidth ?_, min_le_right _ _⟩
    · unfold segmentOf
      rw [hstart, hstop, hspeaker]
      rfl
    · exact hbefore
  | null | bool | natural | decimal | string | array => cases h

theorem parseSegments_eq_ok {raws : List Value} :
    ∀ {index : Nat} {segments : List Interval}, parseSegments duration index raws = .ok segments →
      segments = (raws.filterMap segmentOf).map (within duration) ∧
        ∀ segment ∈ segments, Inside duration segment := by
  induction raws with
  | nil =>
    intro index segments h
    cases h
    exact ⟨rfl, by simp⟩
  | cons raw rest ih =>
    intro index segments h
    simp only [parseSegments, bind_eq_ok] at h
    obtain ⟨segment, hsegment, others, hothers, heq⟩ := h
    cases heq
    obtain ⟨given, hgiven, rfl, hinside⟩ := parseSegment_eq_ok hsegment
    obtain ⟨rfl, hrest⟩ := ih hothers
    refine ⟨?_, forall_mem_cons.mpr ⟨hinside, hrest⟩⟩
    rw [filterMap_cons, hgiven]
    rfl

/-- The keys of the speakers. -/
def speakerKeys (document : Value) : List String :=
  sortedSet ((diarized document).map Spans.Span.label)

/-- The interval of a segment. -/
def intervalOf (document : Value) (duration : ℚ) (segment : Interval) : Interval :=
  ⟨segment.start, min segment.stop duration, clusterLabel (speakerKeys document) segment.label⟩

/-- What the parser admits: at most eight speakers, each with a label of its own, and
intervals that end with the recording. -/
theorem parseDiarizerDocument_eq_ok {document : Value} {intervals : List Interval}
    (h : parseDiarizerDocument document duration = .ok intervals) :
    (speakerKeys document).length ≤ maxSpeakers ∧ intervals.length ≤ maxIntervals ∧
      intervals = (diarized document).map (intervalOf document duration) ∧
      ∀ interval ∈ intervals, Inside duration interval := by
  unfold parseDiarizerDocument at h
  split at h
  · rename_i fields name segments hfile hsegments
    simp only [bind_eq_ok, refuseIf_eq_ok, not_lt] at h
    obtain ⟨_, -, _, hcount, parsed, hparsed, _, hspeakers, heq⟩ := h
    obtain ⟨rfl, hinside⟩ := parseSegments_eq_ok hparsed
    have hdiarized : diarized (.object fields) = segments.filterMap segmentOf := by
      unfold diarized
      rw [hsegments]
      rfl
    have hlabels : ((segments.filterMap segmentOf).map (within duration)).map Spans.Span.label =
        (diarized (.object fields)).map Spans.Span.label := by
      rw [hdiarized, map_map]
      rfl
    rw [hlabels] at hspeakers heq
    rw [← Except.ok.inj heq]
    refine ⟨hspeakers, ?_, ?_, ?_⟩
    · rw [length_map, length_map]
      exact (length_filterMap_le _ _).trans hcount
    · rw [map_map, ← hdiarized]
      rfl
    · intro interval hinterval
      obtain ⟨segment, hsegment, rfl⟩ := mem_map.mp hinterval
      obtain ⟨hnonneg, hlt, hle⟩ := hinside segment hsegment
      exact ⟨hnonneg, hlt, hle⟩
  · cases h

/-! ## The clusters -/

/-- The label of the key at a place. -/
def clusterName (place : Nat) : String := "cluster-" ++ toString (place + 1)

theorem clusterName_sorted :
    ((List.range maxSpeakers).map clusterName).Pairwise (· < ·) := by
  decide +kernel

theorem clusterNames_sorted {count : Nat} (h : count ≤ maxSpeakers) :
    ((List.range count).map clusterName).Pairwise (· < ·) :=
  clusterName_sorted.sublist ((range_sublist.mpr h).map clusterName)

/-- The clusters of the intervals are numbered from one on. -/
theorem clusters_eq {keys : List String} (hnodup : keys.Nodup) (hcount : keys.length ≤ maxSpeakers)
    {labels : List String} (hlabels : ∀ label, label ∈ labels ↔ ∃ key ∈ keys, clusterLabel keys key = label) :
    sortedSet labels = (List.range keys.length).map clusterName := by
  have hsorted := clusterNames_sorted hcount
  have hperm : (sortedSet labels).Perm ((List.range keys.length).map clusterName) := by
    refine (perm_ext_iff_of_nodup (nodup_sortedSet labels) (hsorted.imp ne_of_lt)).mpr ?_
    intro label
    rw [mem_sortedSet, hlabels, mem_map]
    constructor
    · rintro ⟨key, hkey, rfl⟩
      exact ⟨keys.idxOf key, mem_range.mpr (idxOf_lt_length_of_mem hkey), rfl⟩
    · rintro ⟨place, hplace, rfl⟩
      have hlt := mem_range.mp hplace
      refine ⟨keys[place], getElem_mem hlt, ?_⟩
      unfold clusterLabel clusterName
      rw [hnodup.idxOf_getElem]
  exact hperm.eq_of_pairwise' (sorted_sortedSet labels) (hsorted.imp le_of_lt)

theorem clusterLabel_injective {keys : List String} (hcount : keys.length ≤ maxSpeakers)
    {first second : String} (hfirst : first ∈ keys) (hsecond : second ∈ keys)
    (h : clusterLabel keys first = clusterLabel keys second) : first = second := by
  have hnodup := (clusterNames_sorted hcount).imp ne_of_lt
  have hplace : keys.idxOf first = keys.idxOf second :=
    inj_on_of_nodup_map hnodup (mem_range.mpr (idxOf_lt_length_of_mem hfirst))
      (mem_range.mpr (idxOf_lt_length_of_mem hsecond)) h
  exact (idxOf_inj hfirst).mp hplace

end Diarization

end YawnApp.Worker
