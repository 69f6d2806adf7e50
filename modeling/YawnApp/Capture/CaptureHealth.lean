import Mathlib.Data.Rat.Floor
import Mathlib.Algebra.Order.Round
import YawnApp.Foundation.PyValue
import YawnApp.Capture.Wav

set_option autoImplicit false

/-!
# The health of a capture (`capture_health.py`)

A verdict is built from counts and events and is stored with them.  Whoever reads it builds it
again and refuses what is not equal.  The division by a million is exact; how a number of samples
becomes rounded seconds is a parameter, which has no answer where the float overflows.
-/

namespace YawnApp.Capture

open YawnApp.Foundation

namespace CaptureHealth

/-- What the functions raise; a cause or a value stands for the braces of a message. -/
inductive Raised where
  | valueError (message : String)
  | valueErrorFrom (message : String) (cause : Raised)
  | valueErrorOf (message : String) (value : PyValue)
  | subscript (error : PyValue.SubscriptError)
  | overflowError
  | attributeError
  | osError
deriving DecidableEq

def rate : ℤ := 16000

def minLegSamples : ℤ := rate / 5

def maxClockDriftPpm : ℤ := 50

def maxCaptureStartupSkewSamples : ℤ := 2 * rate

def schema : String := "capture-health/1"

/-! ## Measurements -/

/-- The arguments of `build`. -/
structure Arguments where
  micSamples : PyValue
  systemSamples : PyValue
  captureElapsedSamples : PyValue
  dropouts : PyValue
  tapErrors : PyValue
  transcriptionRequested : PyValue
  transcriptWritten : PyValue

/-- The arguments once they were checked. -/
structure Measurements where
  micSamples : ℤ
  systemSamples : ℤ
  captureElapsedSamples : ℤ
  micDropouts : List PyValue
  systemDropouts : List PyValue
  tapErrors : List PyValue
  transcriptionRequested : Bool
  transcriptWritten : Bool

namespace Measurements

def samples (m : Measurements) : MeetingCaptureLeg → ℤ
  | .mic => m.micSamples
  | .system => m.systemSamples

def dropouts (m : Measurements) : MeetingCaptureLeg → List PyValue
  | .mic => m.micDropouts
  | .system => m.systemDropouts

end Measurements

def isEvent (event : PyValue) : Bool := event.asDict.isSome

/-- The round of the loop over the legs. -/
def legDropouts (dropouts : List (String × PyValue)) (leg : MeetingCaptureLeg) :
    Except Raised (List PyValue) := do
  let events ← orRefuse ((dropouts.lookup leg.rawValue).bind PyValue.asList)
    (.valueError (leg.rawValue ++ " dropouts must be a list"))
  refuseIf (events.all isEvent = false)
    (.valueError (leg.rawValue ++ " dropout evidence must contain objects"))
  return events

def countError : Raised := .valueError "capture and leg sample counts must be integers"

def booleanError : Raised := .valueError "transcription evidence must be boolean"

/-- The checks of `build`. -/
def measure (arguments : Arguments) : Except Raised Measurements := do
  let micSamples ← orRefuse arguments.micSamples.asInt countError
  let systemSamples ← orRefuse arguments.systemSamples.asInt countError
  let captureElapsedSamples ← orRefuse arguments.captureElapsedSamples.asInt countError
  refuseIf (captureElapsedSamples < 0)
    (.valueError "capture elapsed samples cannot be negative")
  let dropouts ← orRefuse arguments.dropouts.asDict
    (.valueError "capture dropouts must be grouped by leg")
  let tapErrors ← orRefuse arguments.tapErrors.asList (.valueError "tap_errors must be a list")
  let transcriptionRequested ← orRefuse arguments.transcriptionRequested.asBool booleanError
  let transcriptWritten ← orRefuse arguments.transcriptWritten.asBool booleanError
  let micDropouts ← legDropouts dropouts .mic
  let systemDropouts ← legDropouts dropouts .system
  refuseIf (tapErrors.all isEvent = false)
    (.valueError "tap error evidence must contain objects")
  return {
    micSamples := micSamples
    systemSamples := systemSamples
    captureElapsedSamples := captureElapsedSamples
    micDropouts := micDropouts
    systemDropouts := systemDropouts
    tapErrors := tapErrors
    transcriptionRequested := transcriptionRequested
    transcriptWritten := transcriptWritten }

/-! ## Blockers and requirements -/

def text (value : String) : PyValue := .str value

/-- `MAX_CAPTURE_STARTUP_SKEW_SAMPLES + math.ceil(samples * MAX_CLOCK_DRIFT_PPM / 1_000_000)` -/
def allowedDifference (samples : ℤ) : ℤ :=
  maxCaptureStartupSkewSamples + ⌈(samples * maxClockDriftPpm : ℚ) / 1000000⌉

namespace Measurements

def allowedLegDelta (m : Measurements) : ℤ :=
  allowedDifference (max (max m.micSamples m.systemSamples) 0)

def legDelta (m : Measurements) : ℤ := |m.micSamples - m.systemSamples|

def allowedWallShortfall (m : Measurements) : ℤ := allowedDifference m.captureElapsedSamples

def wallShortfall (m : Measurements) (leg : MeetingCaptureLeg) : ℤ :=
  max (m.captureElapsedSamples - m.samples leg) 0

end Measurements

/-- The name of a leg in the detail of a blocker. -/
def spokenName : MeetingCaptureLeg → String
  | .mic => "microphone"
  | .system => "system"

def samplesBlocker (leg : MeetingCaptureLeg) (samples : ℤ) : List PyValue :=
  if samples ≤ 0 then
    [.dict [("code", text "no_samples"), ("leg", text leg.rawValue),
      ("detail", text ("the " ++ spokenName leg ++ " leg produced no samples"))]]
  else if samples < minLegSamples then
    [.dict [("code", text "incomplete_capture_block"), ("leg", text leg.rawValue),
      ("samples", .int samples), ("minimum_samples", .int minLegSamples),
      ("detail", text ("the " ++ spokenName leg ++ " leg ended before one configured capture "
        ++ "block (" ++ toString samples ++ " of " ++ toString minLegSamples ++ " samples)"))]]
  else []

def dropoutBlocker (leg : MeetingCaptureLeg) (events : List PyValue) : List PyValue :=
  if events = [] then []
  else [.dict [("code", text "driver_dropout"), ("leg", text leg.rawValue),
    ("count", .int events.length),
    ("detail", text (leg.rawValue ++ " reported lost samples, so its timeline has gaps"))]]

def tapBlocker (tapErrors : List PyValue) : List PyValue :=
  if tapErrors = [] then []
  else [.dict [("code", text "tap_error"), ("leg", text "system"),
    ("count", .int tapErrors.length),
    ("detail", text "the system-audio tap reported an error or fatal event")]]

def transcriptBlocker (requested written : Bool) : List PyValue :=
  if requested && !written then
    [.dict [("code", text "transcript_missing"),
      ("detail", text "transcription was requested but no transcript artifact was written")]]
  else []

def spanBlocker (m : Measurements) : List PyValue :=
  if minLegSamples ≤ m.micSamples ∧ minLegSamples ≤ m.systemSamples ∧
      m.allowedLegDelta < m.legDelta then
    let shorter : MeetingCaptureLeg := if m.micSamples < m.systemSamples then .mic else .system
    [.dict [("code", text "leg_span_mismatch"), ("leg", text shorter.rawValue),
      ("difference_samples", .int m.legDelta),
      ("allowed_difference_samples", .int m.allowedLegDelta),
      ("detail", text ("the " ++ shorter.rawValue ++ " leg ended materially before the other leg ("
        ++ toString m.legDelta ++ " samples apart; at most " ++ toString m.allowedLegDelta
        ++ " are allowed for measured startup skew plus bounded clock drift)"))]]
  else []

def wallBlocker (m : Measurements) (leg : MeetingCaptureLeg) : List PyValue :=
  if minLegSamples ≤ m.captureElapsedSamples ∧ m.allowedWallShortfall < m.wallShortfall leg then
    [.dict [("code", text "leg_ended_before_capture_stop"), ("leg", text leg.rawValue),
      ("shortfall_samples", .int (m.wallShortfall leg)),
      ("allowed_shortfall_samples", .int m.allowedWallShortfall),
      ("detail", text ("the " ++ leg.rawValue ++ " leg ended materially before capture stopped ("
        ++ toString (m.wallShortfall leg) ++ " samples short; at most "
        ++ toString m.allowedWallShortfall
        ++ " are allowed for measured startup skew plus bounded clock drift)"))]]
  else []

def blockers (m : Measurements) : List PyValue :=
  samplesBlocker .mic m.micSamples ++ samplesBlocker .system m.systemSamples ++
    dropoutBlocker .mic m.micDropouts ++ dropoutBlocker .system m.systemDropouts ++
    tapBlocker m.tapErrors ++ transcriptBlocker m.transcriptionRequested m.transcriptWritten ++
    spanBlocker m ++ wallBlocker m .mic ++ wallBlocker m .system

def requirements (m : Measurements) : List (String × Bool) :=
  [("both_legs_reached_one_capture_block",
      minLegSamples ≤ m.micSamples ∧ minLegSamples ≤ m.systemSamples),
    ("continuous_timelines", m.micDropouts = [] ∧ m.systemDropouts = []),
    ("tap_reported_no_errors", m.tapErrors = []),
    ("legs_cover_same_capture_span", m.legDelta ≤ m.allowedLegDelta),
    ("both_legs_cover_observed_capture_span",
      m.wallShortfall .mic ≤ m.allowedWallShortfall ∧
        m.wallShortfall .system ≤ m.allowedWallShortfall),
    ("transcript_written_when_requested", !m.transcriptionRequested || m.transcriptWritten)]

/-! ## The document -/

/-- `round(samples / RATE, 3)` -/
abbrev Seconds := ℤ → Option PyFloat

def durationOf (seconds : Seconds) (samples : ℤ) : Except Raised PyValue :=
  (orRefuse (seconds samples) .overflowError).map .float

/-- What `build` returns, the durations being given. -/
def document (m : Measurements) (micDuration systemDuration elapsed : PyValue) : PyValue :=
  .dict [("schema", text schema),
    ("usable", .bool (blockers m = [])),
    ("requirements", .dict ((requirements m).map fun entry => (entry.1, .bool entry.2))),
    ("legs", .dict [
      ("mic", .dict [("samples", .int m.micSamples), ("duration_s", micDuration),
        ("dropouts", .list m.micDropouts)]),
      ("system", .dict [("samples", .int m.systemSamples), ("duration_s", systemDuration),
        ("dropouts", .list m.systemDropouts), ("tap_errors", .list m.tapErrors)])]),
    ("transcription", .dict [("requested", .bool m.transcriptionRequested),
      ("transcript_written", .bool m.transcriptWritten)]),
    ("timing", .dict [("capture_elapsed_samples", .int m.captureElapsedSamples),
      ("capture_elapsed_s", elapsed), ("leg_sample_difference", .int m.legDelta),
      ("allowed_leg_sample_difference", .int m.allowedLegDelta),
      ("wall_shortfall_samples", .dict [("mic", .int (m.wallShortfall .mic)),
        ("system", .int (m.wallShortfall .system))]),
      ("allowed_wall_shortfall_samples", .int m.allowedWallShortfall),
      ("clock_drift_ppm", .int maxClockDriftPpm)]),
    ("blockers", .list (blockers m))]

def build (seconds : Seconds) (arguments : Arguments) : Except Raised PyValue := do
  let m ← measure arguments
  let micDuration ← durationOf seconds m.micSamples
  let systemDuration ← durationOf seconds m.systemSamples
  let elapsed ← durationOf seconds m.captureElapsedSamples
  return document m micDuration systemDuration elapsed

/-! ## Validation -/

def subscript (value : PyValue) (key : String) : Except Raised PyValue :=
  (value.subscript key).mapError .subscript

/-- `value[outer][inner]` -/
def subscript₂ (value : PyValue) (outer inner : String) : Except Raised PyValue := do
  subscript (← subscript value outer) inner

/-- The arguments of the call of `build` in `validate`. -/
def recordedArguments (health : PyValue) : Except Raised Arguments := do
  let legs ← subscript health "legs"
  let transcription ← subscript health "transcription"
  let micSamples ← subscript₂ legs "mic" "samples"
  let systemSamples ← subscript₂ legs "system" "samples"
  let captureElapsedSamples ← subscript₂ health "timing" "capture_elapsed_samples"
  let micDropouts ← subscript₂ legs "mic" "dropouts"
  let systemDropouts ← subscript₂ legs "system" "dropouts"
  let tapErrors ← subscript₂ legs "system" "tap_errors"
  let transcriptionRequested ← subscript transcription "requested"
  let transcriptWritten ← subscript transcription "transcript_written"
  return {
    micSamples := micSamples
    systemSamples := systemSamples
    captureElapsedSamples := captureElapsedSamples
    dropouts := .dict [("mic", micDropouts), ("system", systemDropouts)]
    tapErrors := tapErrors
    transcriptionRequested := transcriptionRequested
    transcriptWritten := transcriptWritten }

/-- `build` of a document's own measurements. -/
def rebuild (seconds : Seconds) (health : PyValue) : Except Raised PyValue := do
  build seconds (← recordedArguments health)

/-- The exceptions that `validate` turns into a `ValueError`. -/
def Raised.caught : Raised → Bool
  | .attributeError => false
  | .osError => false
  | _ => true

def Raised.isValueError : Raised → Bool
  | .valueError _ => true
  | .valueErrorFrom _ _ => true
  | .valueErrorOf _ _ => true
  | _ => false

/-- `except … as exc: raise ValueError(message)`, for the exceptions that are named. -/
def reraise (message : String) (catches : Raised → Bool) {α : Type} (answer : Except Raised α) :
    Except Raised α :=
  answer.mapError fun error =>
    if catches error = true then .valueErrorFrom message error else error

def validate (seconds : Seconds) (health : PyValue) (transcriptContext : Bool) :
    Except Raised Bool := do
  refuseIf (health.get "schema" ≠ some (text schema))
    (.valueError "capture health is absent or uses an unknown schema")
  let rebuilt ← reraise "capture health evidence is malformed: \x7b\x7d" Raised.caught
    (rebuild seconds health)
  refuseIf (health.equals rebuilt = false)
    (.valueError ("capture health verdict does not match its timing, sample, dropout, tap, "
      ++ "and transcription evidence"))
  if transcriptContext then do
    let requested ← subscript₂ rebuilt "transcription" "requested"
    let written ← subscript₂ rebuilt "transcription" "transcript_written"
    refuseIf (¬ (requested = .bool true ∧ written = .bool true))
      (.valueError ("a transcript must carry capture health that says transcription was "
        ++ "requested and its artifact was written"))
  let usable ← subscript rebuilt "usable"
  return decide (usable = .bool true)

/-! ## A verdict is earned -/

variable {events : List PyValue} {m : Measurements} {leg : MeetingCaptureLeg} {health : PyValue}
  {seconds : Seconds}

theorem samplesBlocker_eq_nil {samples : ℤ} :
    samplesBlocker leg samples = [] ↔ minLegSamples ≤ samples := by
  have hmin : (0 : ℤ) < minLegSamples := by decide
  unfold samplesBlocker
  split
  · simp only [List.cons_ne_nil, false_iff, not_le]
    omega
  · split
    · simp only [List.cons_ne_nil, false_iff, not_le]
      assumption
    · simp only [true_iff]
      omega

theorem dropoutBlocker_eq_nil : dropoutBlocker leg events = [] ↔ events = [] := by
  unfold dropoutBlocker
  split <;> simp_all

theorem tapBlocker_eq_nil : tapBlocker events = [] ↔ events = [] := by
  unfold tapBlocker
  split <;> simp_all

theorem transcriptBlocker_eq_nil {requested written : Bool} :
    transcriptBlocker requested written = [] ↔ (!requested || written) = true := by
  cases requested <;> cases written <;> simp [transcriptBlocker]

theorem spanBlocker_eq_nil :
    spanBlocker m = [] ↔ (minLegSamples ≤ m.micSamples → minLegSamples ≤ m.systemSamples →
      m.legDelta ≤ m.allowedLegDelta) := by
  unfold spanBlocker
  split
  · rename_i h
    simp only [List.cons_ne_nil, false_iff]
    exact fun hle => absurd (hle h.1 h.2.1) (not_le.mpr h.2.2)
  · rename_i h
    simp only [true_iff]
    exact fun hmic hsystem => not_lt.mp fun hlt => h ⟨hmic, hsystem, hlt⟩

theorem wallBlocker_eq_nil : wallBlocker m leg = [] ↔ (minLegSamples ≤ m.captureElapsedSamples →
      m.wallShortfall leg ≤ m.allowedWallShortfall) := by
  unfold wallBlocker
  split
  · rename_i h
    simp only [List.cons_ne_nil, false_iff]
    exact fun hle => absurd (hle h.1) (not_le.mpr h.2)
  · rename_i h
    simp only [true_iff]
    exact fun hmin => not_lt.mp fun hlt => h ⟨hmin, hlt⟩

theorem allowedDifference_nonneg {samples : ℤ} (h : 0 ≤ samples) : 0 ≤ allowedDifference samples := by
  have hceil : 0 ≤ ⌈(samples * maxClockDriftPpm : ℚ) / 1000000⌉ := by
    apply Int.ceil_nonneg
    have : (0 : ℚ) ≤ samples := by exact_mod_cast h
    have : (0 : ℚ) ≤ maxClockDriftPpm := by decide
    positivity
  have hskew : 0 ≤ maxCaptureStartupSkewSamples := by decide
  exact add_nonneg hskew hceil

/-- A leg that reached one block falls short of a shorter capture by nothing. -/
theorem wallShortfall_of_short (hpos : 0 ≤ m.captureElapsedSamples)
    (hleg : minLegSamples ≤ m.samples leg) (hshort : m.captureElapsedSamples < minLegSamples) :
    m.wallShortfall leg ≤ m.allowedWallShortfall := by
  have hzero : m.wallShortfall leg = 0 := max_eq_right (by omega)
  rw [hzero]
  exact allowedDifference_nonneg hpos

/-- The blockers and the requirements are worked out apart from each other, under different
guards, and agree. -/
theorem blockers_eq_nil_iff (hpos : 0 ≤ m.captureElapsedSamples) :
    blockers m = [] ↔ ∀ entry ∈ requirements m, entry.2 = true := by
  have hwall (leg : MeetingCaptureLeg) (hleg : minLegSamples ≤ m.samples leg) :
      wallBlocker m leg = [] ↔ m.wallShortfall leg ≤ m.allowedWallShortfall := by
    rw [wallBlocker_eq_nil]
    refine ⟨fun h => ?_, fun h _ => h⟩
    by_cases hmin : minLegSamples ≤ m.captureElapsedSamples
    · exact h hmin
    · exact wallShortfall_of_short hpos hleg (not_le.mp hmin)
  simp only [blockers, List.append_eq_nil_iff, samplesBlocker_eq_nil, dropoutBlocker_eq_nil,
    tapBlocker_eq_nil, transcriptBlocker_eq_nil, spanBlocker_eq_nil, requirements,
    List.forall_mem_cons, decide_eq_true_eq]
  constructor
  · rintro ⟨⟨⟨⟨⟨⟨⟨⟨hmic, hsystem⟩, hmicDropouts⟩, hsystemDropouts⟩, htap⟩, htranscript⟩, hspan⟩,
      hmicWall⟩, hsystemWall⟩
    exact ⟨⟨hmic, hsystem⟩, ⟨hmicDropouts, hsystemDropouts⟩, htap, hspan hmic hsystem,
      ⟨(hwall .mic hmic).mp hmicWall, (hwall .system hsystem).mp hsystemWall⟩, htranscript,
      by simp⟩
  · rintro ⟨⟨hmic, hsystem⟩, ⟨hmicDropouts, hsystemDropouts⟩, htap, hspan,
      ⟨hmicWall, hsystemWall⟩, htranscript, -⟩
    exact ⟨⟨⟨⟨⟨⟨⟨⟨hmic, hsystem⟩, hmicDropouts⟩, hsystemDropouts⟩, htap⟩, htranscript⟩,
      fun _ _ => hspan⟩, (hwall .mic hmic).mpr hmicWall⟩, (hwall .system hsystem).mpr hsystemWall⟩

/-! ## What is built is accepted -/

/-- What the checks of `build` leave. -/
structure Measurements.Valid (m : Measurements) : Prop where
  elapsed : 0 ≤ m.captureElapsedSamples
  micEvents : m.micDropouts.all isEvent = true
  systemEvents : m.systemDropouts.all isEvent = true
  tapEvents : m.tapErrors.all isEvent = true

/-- The arguments that a document of these measurements records. -/
def Measurements.arguments (m : Measurements) : Arguments where
  micSamples := .int m.micSamples
  systemSamples := .int m.systemSamples
  captureElapsedSamples := .int m.captureElapsedSamples
  dropouts := .dict [("mic", .list m.micDropouts), ("system", .list m.systemDropouts)]
  tapErrors := .list m.tapErrors
  transcriptionRequested := .bool m.transcriptionRequested
  transcriptWritten := .bool m.transcriptWritten

theorem legDropouts_events {dropouts : List (String × PyValue)}
    (h : legDropouts dropouts leg = .ok events) : events.all isEvent = true := by
  simp only [legDropouts, bind_eq_ok, orRefuse_eq_ok, refuseIf_eq_ok] at h
  obtain ⟨found, -, -, hevents, hfound⟩ := h
  obtain rfl : found = events := Except.ok.inj hfound
  simpa using hevents

theorem measure_valid {arguments : Arguments} (h : measure arguments = .ok m) : m.Valid := by
  simp only [measure, bind_eq_ok, orRefuse_eq_ok, refuseIf_eq_ok] at h
  obtain ⟨micSamples, -, systemSamples, -, elapsed, -, -, helapsed, dropouts, -, tapErrors, -,
    requested, -, written, -, micDropouts, hmic, systemDropouts, hsystem, -, htap, hm⟩ := h
  obtain rfl := Except.ok.inj hm
  exact ⟨not_lt.mp helapsed, legDropouts_events hmic, legDropouts_events hsystem,
    by simpa using htap⟩

theorem legDropouts_recorded (dropouts : List (String × PyValue)) (leg : MeetingCaptureLeg)
    (hfound : dropouts.lookup leg.rawValue = some (.list events))
    (hevents : events.all isEvent = true) : legDropouts dropouts leg = .ok events := by
  rw [legDropouts, hfound]
  simp only [Option.bind_some, PyValue.asList, orRefuse_some, ok_bind]
  rw [refuseIf_of_not (by simp [hevents])]
  rfl

theorem Measurements.Valid.measure (h : m.Valid) : measure m.arguments = .ok m := by
  have hmic := legDropouts_recorded
    [("mic", .list m.micDropouts), ("system", .list m.systemDropouts)] .mic rfl h.micEvents
  have hsystem := legDropouts_recorded
    [("mic", .list m.micDropouts), ("system", .list m.systemDropouts)] .system rfl h.systemEvents
  simp only [CaptureHealth.measure, Measurements.arguments, PyValue.asInt, PyValue.asDict,
    PyValue.asList, PyValue.asBool, orRefuse_some, ok_bind,
    refuseIf_of_not (not_lt.mpr h.elapsed), hmic, hsystem]
  rw [refuseIf_of_not (by simp [h.tapEvents])]
  rfl

theorem build_eq_ok {arguments : Arguments} :
    build seconds arguments = .ok health ↔ ∃ m micDuration systemDuration elapsed,
      measure arguments = .ok m ∧ durationOf seconds m.micSamples = .ok micDuration ∧
      durationOf seconds m.systemSamples = .ok systemDuration ∧
      durationOf seconds m.captureElapsedSamples = .ok elapsed ∧
      health = document m micDuration systemDuration elapsed := by
  simp only [build, bind_eq_ok]
  constructor
  · rintro ⟨m, hm, micDuration, hmic, systemDuration, hsystem, elapsed, helapsed, hhealth⟩
    exact ⟨m, micDuration, systemDuration, elapsed, hm, hmic, hsystem, helapsed,
      (Except.ok.inj hhealth).symm⟩
  · rintro ⟨m, micDuration, systemDuration, elapsed, hm, hmic, hsystem, helapsed, rfl⟩
    exact ⟨m, hm, micDuration, hmic, systemDuration, hsystem, elapsed, helapsed, rfl⟩

theorem recordedArguments_document (m : Measurements)
    (micDuration systemDuration elapsed : PyValue) :
    recordedArguments (document m micDuration systemDuration elapsed) = .ok m.arguments := rfl

/-- What is built is what would be built of its own measurements. -/
theorem rebuild_of_build {arguments : Arguments} (h : build seconds arguments = .ok health) :
    rebuild seconds health = .ok health := by
  obtain ⟨m, micDuration, systemDuration, elapsed, hm, hmic, hsystem, helapsed, rfl⟩ :=
    build_eq_ok.mp h
  rw [rebuild, recordedArguments_document, ok_bind, build_eq_ok]
  exact ⟨m, micDuration, systemDuration, elapsed, (measure_valid hm).measure, hmic, hsystem,
    helapsed, rfl⟩

/-- A document whose verdict follows from its requirements, and whose failed requirements come
with a blocker. -/
structure Earned (health : PyValue) (usable : Bool) : Prop where
  verdict : health.get "usable" = some (.bool usable)
  requirements : ∃ entries, health.get "requirements" = some (.dict entries) ∧
    (usable = true ↔ ∀ entry ∈ entries, entry.2 = .bool true) ∧
    ∀ entry ∈ entries, entry.2 ≠ .bool true →
      ∃ found, health.get "blockers" = some (.list found) ∧ found ≠ []

theorem earned_document (h : m.Valid) (micDuration systemDuration elapsed : PyValue) :
    Earned (document m micDuration systemDuration elapsed) (blockers m = []) := by
  have hiff := blockers_eq_nil_iff h.elapsed
  refine ⟨rfl, _, rfl, ?_, ?_⟩
  · rw [decide_eq_true_iff, hiff, List.forall_mem_map]
    apply forall₂_congr
    intro entry _
    simp
  · intro entry hentry hfailed
    refine ⟨blockers m, rfl, fun hnil => hfailed ?_⟩
    obtain ⟨requirement, hrequirement, rfl⟩ := List.mem_map.mp hentry
    rw [hiff.mp hnil requirement hrequirement]

theorem subscript_usable (m : Measurements) (micDuration systemDuration elapsed : PyValue) :
    subscript (document m micDuration systemDuration elapsed) "usable" =
      .ok (.bool (blockers m = [])) := rfl

theorem validate_of_build {arguments : Arguments} (h : build seconds arguments = .ok health) :
    ∃ usable, Earned health usable ∧ validate seconds health false = .ok usable := by
  have hrebuild := rebuild_of_build h
  obtain ⟨m, micDuration, systemDuration, elapsed, hm, -, -, -, rfl⟩ := build_eq_ok.mp h
  refine ⟨_, earned_document (measure_valid hm) _ _ _, ?_⟩
  have hschema : (document m micDuration systemDuration elapsed).get "schema" =
      some (text schema) := rfl
  rw [validate, hschema, refuseIf_of_not (by simp), ok_bind, hrebuild]
  have hequal := PyValue.equals_self (document m micDuration systemDuration elapsed)
  simp only [reraise, Except.mapError, ok_bind]
  rw [hequal, refuseIf_of_not (by simp), ok_bind]
  simp only [subscript_usable, ok_bind]
  simp [pure, Except.pure]

/-! ## What is read is built -/

/-- All that a computation raises passes a test. -/
def Raises {α : Type} (test : Raised → Bool) (answer : Except Raised α) : Prop :=
  ∀ error, answer = .error error → test error = true

section Raises

variable {α β : Type} {test : Raised → Bool}

theorem raises_ok (value : α) : Raises test (.ok value) := by
  intro error h
  cases h

theorem raises_bind {answer : Except Raised α} {next : α → Except Raised β}
    (hanswer : Raises test answer) (hnext : ∀ value, answer = .ok value → Raises test (next value)) :
    Raises test (answer >>= next) := by
  cases hcase : answer with
  | error error =>
    intro raised h
    obtain rfl : error = raised := Except.error.inj h
    exact hanswer error hcase
  | ok value => exact hnext value hcase

theorem raises_refuseIf {condition : Prop} [Decidable condition] {error : Raised}
    (h : test error = true) : Raises test (refuseIf condition error) := by
  unfold refuseIf
  split
  · intro raised heq
    obtain rfl := Except.error.inj heq
    exact h
  · exact raises_ok _

theorem raises_orRefuse {found : Option α} {error : Raised} (h : test error = true) :
    Raises test (orRefuse found error) := by
  cases found with
  | some value => exact raises_ok value
  | none =>
    intro raised heq
    obtain rfl := Except.error.inj heq
    exact h

theorem raises_map {answer : Except Raised α} {f : α → β} (h : Raises test answer) :
    Raises test (answer.map f) := by
  cases hcase : answer with
  | error error =>
    intro raised heq
    obtain rfl : error = raised := Except.error.inj heq
    exact h error hcase
  | ok => exact raises_ok _

theorem raises_subscript (value : PyValue) (key : String) :
    Raises Raised.caught (subscript value key) := by
  rw [subscript]
  cases value.subscript key with
  | error =>
    intro raised heq
    obtain rfl := Except.error.inj heq
    rfl
  | ok found => exact raises_ok found

theorem raises_subscript₂ (value : PyValue) (outer inner : String) :
    Raises Raised.caught (subscript₂ value outer inner) :=
  raises_bind (raises_subscript value outer) fun found _ => raises_subscript found inner

end Raises

theorem legDropouts_raises (dropouts : List (String × PyValue)) (leg : MeetingCaptureLeg) :
    Raises Raised.caught (legDropouts dropouts leg) :=
  raises_bind (raises_orRefuse rfl) fun _ _ =>
    raises_bind (raises_refuseIf rfl) fun _ _ => raises_ok _

theorem measure_raises (arguments : Arguments) : Raises Raised.caught (measure arguments) :=
  raises_bind (raises_orRefuse rfl) fun _ _ =>
  raises_bind (raises_orRefuse rfl) fun _ _ =>
  raises_bind (raises_orRefuse rfl) fun _ _ =>
  raises_bind (raises_refuseIf rfl) fun _ _ =>
  raises_bind (raises_orRefuse rfl) fun _ _ =>
  raises_bind (raises_orRefuse rfl) fun _ _ =>
  raises_bind (raises_orRefuse rfl) fun _ _ =>
  raises_bind (raises_orRefuse rfl) fun _ _ =>
  raises_bind (legDropouts_raises _ _) fun _ _ =>
  raises_bind (legDropouts_raises _ _) fun _ _ =>
  raises_bind (raises_refuseIf rfl) fun _ _ => raises_ok _

theorem durationOf_raises (seconds : Seconds) (samples : ℤ) :
    Raises Raised.caught (durationOf seconds samples) := raises_map (raises_orRefuse rfl)

theorem build_raises (seconds : Seconds) (arguments : Arguments) :
    Raises Raised.caught (build seconds arguments) :=
  raises_bind (measure_raises arguments) fun _ _ =>
  raises_bind (durationOf_raises seconds _) fun _ _ =>
  raises_bind (durationOf_raises seconds _) fun _ _ =>
  raises_bind (durationOf_raises seconds _) fun _ _ => raises_ok _

theorem recordedArguments_raises (health : PyValue) :
    Raises Raised.caught (recordedArguments health) :=
  raises_bind (raises_subscript _ _) fun _ _ =>
  raises_bind (raises_subscript _ _) fun _ _ =>
  raises_bind (raises_subscript₂ _ _ _) fun _ _ =>
  raises_bind (raises_subscript₂ _ _ _) fun _ _ =>
  raises_bind (raises_subscript₂ _ _ _) fun _ _ =>
  raises_bind (raises_subscript₂ _ _ _) fun _ _ =>
  raises_bind (raises_subscript₂ _ _ _) fun _ _ =>
  raises_bind (raises_subscript₂ _ _ _) fun _ _ =>
  raises_bind (raises_subscript _ _) fun _ _ =>
  raises_bind (raises_subscript _ _) fun _ _ => raises_ok _

/-- Whatever a document holds, building it again raises what `validate` catches. -/
theorem rebuild_raises (seconds : Seconds) (health : PyValue) :
    Raises Raised.caught (rebuild seconds health) :=
  raises_bind (recordedArguments_raises health) fun _ _ => build_raises seconds _

/-- What `validate` has looked at when it answers. -/
structure Validated (seconds : Seconds) (health : PyValue) (m : Measurements) : Prop where
  valid : m.Valid
  recorded : ∃ arguments, recordedArguments health = .ok arguments ∧ measure arguments = .ok m
  equal : ∃ micDuration systemDuration elapsed,
    rebuild seconds health = .ok (document m micDuration systemDuration elapsed) ∧
      health.equals (document m micDuration systemDuration elapsed) = true

theorem reraise_eq_ok {message : String} {catches : Raised → Bool} {α : Type}
    {answer : Except Raised α} {value : α} :
    reraise message catches answer = .ok value ↔ answer = .ok value := by
  cases answer <;> simp [reraise, Except.mapError]

theorem raises_reraise {message : String} {catches : Raised → Bool} {α : Type}
    {answer : Except Raised α} (h : Raises catches answer) :
    Raises Raised.isValueError (reraise message catches answer) := by
  intro raised heq
  cases hanswer : answer with
  | ok => simp [reraise, hanswer, Except.mapError] at heq
  | error error =>
    rw [reraise, hanswer, Except.mapError, if_pos (h error hanswer)] at heq
    obtain rfl := Except.error.inj heq
    rfl

/-- A document that is accepted equals the one built of its own measurements, and the answer
is the usability of that one. -/
theorem validate_eq_ok {context usable : Bool} (h : validate seconds health context = .ok usable) :
    ∃ m, Validated seconds health m ∧ (usable = true ↔ blockers m = []) := by
  simp only [validate, bind_eq_ok, refuseIf_eq_ok] at h
  obtain ⟨-, hschema, rebuilt, hrebuilt, -, hequal, h⟩ := h
  have hrebuilt := reraise_eq_ok.mp hrebuilt
  obtain ⟨arguments, hrecorded, hbuild⟩ := bind_eq_ok.mp hrebuilt
  obtain ⟨m, micDuration, systemDuration, elapsed, hm, -, -, -, rfl⟩ := build_eq_ok.mp hbuild
  refine ⟨m, ⟨measure_valid hm, ⟨arguments, hrecorded, hm⟩,
    ⟨micDuration, systemDuration, elapsed, hrebuilt, by simpa using hequal⟩⟩, ?_⟩
  obtain ⟨value, husable, hanswer⟩ : ∃ value,
      subscript (document m micDuration systemDuration elapsed) "usable" = .ok value ∧
        decide (value = .bool true) = usable := by
    cases context with
    | false => simpa [pure, Except.pure] using h
    | true =>
      simp only [if_true, bind_eq_ok] at h
      obtain ⟨-, -, -, -, -, -, value, husable, hanswer⟩ := h
      exact ⟨value, husable, Except.ok.inj hanswer⟩
  rw [subscript_usable] at husable
  obtain rfl := Except.ok.inj husable
  rw [← hanswer]
  simp

/-- What is refused is refused with a `ValueError`. -/
theorem validate_raises (seconds : Seconds) (health : PyValue) (context : Bool) :
    Raises Raised.isValueError (validate seconds health context) := by
  refine raises_bind (raises_refuseIf rfl) fun _ _ =>
    raises_bind (raises_reraise (rebuild_raises seconds health)) fun rebuilt hrebuilt =>
    raises_bind (raises_refuseIf rfl) fun _ _ => ?_
  obtain ⟨arguments, -, hbuild⟩ := bind_eq_ok.mp (reraise_eq_ok.mp hrebuilt)
  obtain ⟨m, micDuration, systemDuration, elapsed, -, -, -, -, rfl⟩ := build_eq_ok.mp hbuild
  have husable : Raises Raised.isValueError (do
      let usable ← subscript (document m micDuration systemDuration elapsed) "usable"
      return decide (usable = .bool true)) := by
    rw [subscript_usable]
    exact raises_ok _
  cases context with
  | false => exact husable
  | true =>
    exact raises_bind (raises_ok _) fun _ _ => raises_bind (raises_ok _) fun _ _ =>
      raises_bind (raises_refuseIf rfl) fun _ _ => husable

end CaptureHealth

end YawnApp.Capture
