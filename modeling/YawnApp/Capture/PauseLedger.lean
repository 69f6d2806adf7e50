import Mathlib.Data.Rat.Floor
import Mathlib.Algebra.Order.Round
import YawnApp.Worker.PythonText

set_option autoImplicit false

/-!
# The pauses of a recording (`main.rs`, `dual_capture.py`)

The desktop keeps a ledger of the recorded and the paused time of a take and writes the
pauses into the receipt of the capture, in samples of the wall clock.  The worker adds the
pauses to the recorded time again and refuses a pause that ends later than that.

An `Instant` and a `Duration` are numbers of nanoseconds.  Seconds become samples as exact
rationals.
-/

namespace YawnApp.Capture

open YawnApp.Foundation YawnApp.Worker

/-! ## The ledger of the desktop -/

structure PauseLedger where
  recorded : Nat
  paused : Nat
  segmentStarted : Option Nat
  pausedSince : Option Nat
  spans : List (Nat × Nat)
deriving DecidableEq

/-- `as_secs_f64() * 16_000.0` -/
def samplesOf (duration : Nat) : ℚ := duration / 1000000000 * 16000

/-- `f64::round`, of a number that is not negative, `as u64`. -/
def roundSamples (samples : ℚ) : Nat := (round samples).toNat

def maximumSamples : ℚ := 16000 * 60 * 60 * 24

def pauseOffsetSamples (offset : Nat) : Except String Nat := do
  let samples := samplesOf offset
  refuseIf (samples < 0 ∨ samples > maximumSamples) "a pause offset is outside the supported range"
  return roundSamples samples

def elapsedSamples (duration : Nat) : Except String Nat := do
  let samples := samplesOf duration
  refuseIf (samples < 1 ∨ samples > maximumSamples)
    "capture elapsed time is outside the supported range"
  return roundSamples samples

def maxPauseSpans : Nat := 64

/-- One entry of `spans` in a receipt. -/
def spanValue (span : Nat × Nat) : Value :=
  .object [("paused_at_samples", .natural span.1), ("resumed_at_samples", .natural span.2)]

def pausesValue (spans : List (Nat × Nat)) : Value :=
  .object [("schema", .string "capture-pauses/1"), ("spans", .array (spans.map spanValue))]

/-- A span of the ledger in samples. -/
def spanSamples (span : Nat × Nat) : Except String (Nat × Nat) := do
  let pausedAt ← pauseOffsetSamples span.1
  let resumedAt ← pauseOffsetSamples span.2
  return (pausedAt, resumedAt)

namespace PauseLedger

def new (recordingStarted : Nat) : PauseLedger := ⟨0, 0, some recordingStarted, none, []⟩

def closedWallClock (ledger : PauseLedger) : Nat := ledger.recorded + ledger.paused

def beginPause (ledger : PauseLedger) (now : Nat) : PauseLedger :=
  match ledger.segmentStarted with
  | none => ledger
  | some started =>
    { ledger with
      segmentStarted := none
      recorded := ledger.recorded + (now - started)
      pausedSince := some now }

def endPause (ledger : PauseLedger) (now : Nat) : PauseLedger :=
  match ledger.pausedSince with
  | none => ledger
  | some since =>
    let start := ledger.closedWallClock
    let held := now - since
    { ledger with
      pausedSince := none
      spans := ledger.spans ++ [(start, start + held)]
      paused := ledger.paused + held
      segmentStarted := some now }

def finish (ledger : PauseLedger) (now : Nat) : PauseLedger :=
  if ledger.pausedSince.isSome then { ledger.endPause now with segmentStarted := none }
  else
    match ledger.segmentStarted with
    | none => ledger
    | some started =>
      { ledger with segmentStarted := none, recorded := ledger.recorded + (now - started) }

def recordedElapsed (ledger : PauseLedger) : Nat := ledger.recorded

def receipt (ledger : PauseLedger) : Except String (Option Value) :=
  if ledger.spans = [] then .ok none
  else do
    refuseIf (ledger.spans.length > maxPauseSpans)
      "the recording was paused more times than a receipt can record"
    let spans ← ledger.spans.mapM spanSamples
    return some (pausesValue spans)

end PauseLedger

/-! ## The check of the worker -/

def pausesSchema : String := "capture-pauses/1"

def maxCaptureSamples : Nat := 16000 * 60 * 60 * 24

/-- The variables of the loop. -/
structure SpanTotals where
  previousEnd : Option Nat
  total : Nat
deriving DecidableEq

/-- A sample count of a span.  Negative and broken numbers are no natural ones. -/
def spanCount (span : Value) (name : String) : Except String Nat :=
  match span.get name with
  | some (.natural count) => .ok count
  | _ => .error ("pause span " ++ name ++ " must be an integer sample count")

/-- The body of the loop. -/
def validateSpan (totals : SpanTotals) (span : Value) : Except String SpanTotals :=
  match span with
  | .object fields => do
    refuseIf (¬ keysAre fields ["paused_at_samples", "resumed_at_samples"])
      "each pause span needs exactly a start and an end"
    let start ← spanCount span "paused_at_samples"
    let stop ← spanCount span "resumed_at_samples"
    refuseIf (stop ≤ start) "a pause span must start at or after zero and end after it starts"
    refuseIf (totals.previousEnd.any fun previous => start < previous)
      "pause spans must be ordered and may not overlap"
    refuseIf (totals.total + (stop - start) > maxCaptureSamples)
      "recorded pause time exceeds the supported capture duration"
    return ⟨some stop, totals.total + (stop - start)⟩
  | _ => .error "each pause span needs exactly a start and an end"

def validateSpans : SpanTotals → List Value → Except String SpanTotals
  | totals, [] => .ok totals
  | totals, span :: rest => do
    let totals ← validateSpan totals span
    validateSpans totals rest

/-- `validate_pause_evidence` -/
def validatePauseEvidence (pauses : Value) (captureElapsedSamples : Option Nat) :
    Except String Value :=
  match pauses with
  | .object fields => do
    refuseIf (¬ keysAre fields ["schema", "spans"]) "pause evidence has unexpected or missing keys"
    refuseIf (pauses.get "schema" ≠ some (.string pausesSchema))
      "pause evidence schema must be 'capture-pauses/1'"
    let spans ← orRefuse ((pauses.get "spans").bind Value.asArray) "pause spans must be a list"
    refuseIf (spans.length > maxPauseSpans) "a capture may record at most 64 pause spans"
    let totals ← validateSpans ⟨none, 0⟩ spans
    refuseIf (captureElapsedSamples.any fun elapsed =>
        totals.previousEnd.any fun previousEnd => previousEnd > elapsed + totals.total)
      "a pause span ends after the meeting stopped"
    return pauses
  | _ => .error "pause evidence must be one JSON object"

/-! ## Takes -/

inductive PauseEvent where
  | beginPause (now : Nat)
  | endPause (now : Nat)
deriving DecidableEq

def PauseEvent.now : PauseEvent → Nat
  | .beginPause now | .endPause now => now

def PauseLedger.apply (ledger : PauseLedger) : PauseEvent → PauseLedger
  | .beginPause now => ledger.beginPause now
  | .endPause now => ledger.endPause now

/-- The ledger of a take that is started, paused and stopped at the given instants. -/
def ledgerOf (start : Nat) (events : List PauseEvent) (stop : Nat) : PauseLedger :=
  (events.foldl PauseLedger.apply (.new start)).finish stop

/-- The pauses of a take: an event that changes nothing is passed over, and stopping ends a
pause. -/
def pausesFrom (stop : Nat) : Option Nat → List PauseEvent → List (Nat × Nat)
  | none, [] => []
  | some since, [] => [(since, stop)]
  | none, .beginPause now :: rest => pausesFrom stop (some now) rest
  | none, .endPause _ :: rest => pausesFrom stop none rest
  | some since, .beginPause _ :: rest => pausesFrom stop (some since) rest
  | some since, .endPause now :: rest => (since, now) :: pausesFrom stop none rest

end YawnApp.Capture
