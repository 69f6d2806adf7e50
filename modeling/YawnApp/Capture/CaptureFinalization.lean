import YawnApp.Capture.CaptureHealth
import YawnApp.Worker.SpeechResults

set_option autoImplicit false

/-!
# Finalizing a capture (`dual_capture.py`)

A take becomes `complete`, `failed` or `abandoned`.  Its health is validated, and the files beside
it are read and compared with what the health records, before the receipt of the session is
written.  What the file system holds and answers is an argument.
-/

namespace YawnApp.Capture

open YawnApp.Foundation

namespace CaptureHealth

/-! ## The files of a take -/

/-- What `wave` reads of a file. -/
structure WavContents where
  channels : Nat
  sampleRate : Nat
  sampleWidth : Nat
  frames : Nat
  encoded : Bytes

inductive WavFile where
  /-- Nothing, or no regular file. -/
  | missing
  | unreadable (cause : Raised)
  | readable (contents : WavContents)

inductive TranscriptFile where
  | absent
  /-- Something that is no regular file. -/
  | other
  | file (document : Except Raised PyValue)

structure TakeFiles where
  wav : MeetingCaptureLeg → WavFile
  transcript : TranscriptFile
  sha256 : String → Except Raised String

def wavName (leg : MeetingCaptureLeg) : String := leg.rawValue ++ ".wav"

def cannotFinalize (message : String) : String := "cannot finalize capture: " ++ message

/-- The round of the loop of `reconcile_capture_artifacts`. -/
def reconcileLeg (files : TakeFiles) (health : PyValue) (leg : MeetingCaptureLeg) :
    Except Raised PyValue := do
  let filename := wavName leg
  match files.wav leg with
  | .missing => .error (.valueError (cannotFinalize (filename ++ " is missing")))
  | .unreadable cause =>
    .error (.valueErrorFrom (cannotFinalize (filename ++ " is not a readable WAV (\x7b\x7d)")) cause)
  | .readable wav => do
    refuseIf (wav.channels ≠ 1 ∨ (wav.sampleRate : ℤ) ≠ rate ∨ wav.sampleWidth ≠ 2)
      (.valueError (cannotFinalize (filename ++ " is " ++ toString wav.channels ++ " channel(s) at "
        ++ toString wav.sampleRate ++ " Hz with " ++ toString wav.sampleWidth
        ++ "-byte samples, expected mono " ++ toString rate ++ " Hz 16-bit PCM")))
    let readableFrames := wav.encoded.length / (wav.channels * wav.sampleWidth)
    refuseIf (wav.encoded.length ≠ wav.frames * wav.channels * wav.sampleWidth)
      (.valueError (cannotFinalize (filename ++ " declares " ++ toString wav.frames
        ++ " frames but only " ++ toString readableFrames ++ " are readable")))
    let legs ← subscript health "legs"
    let expected ← subscript₂ legs leg.rawValue "samples"
    refuseIf ((PyValue.int wav.frames).equals expected = false)
      (.valueErrorOf (cannotFinalize (filename ++ " has " ++ toString wav.frames
        ++ " samples but capture health records \x7b\x7d")) expected)
    let digest ← files.sha256 filename
    return .dict [("name", text filename), ("samples", .int wav.frames), ("sha256", text digest)]

def transcriptSchema : String := "capture-transcript/1"

/-- What `reconcile_capture_artifacts` does about the transcript. -/
def reconcileTranscript (seconds : Seconds) (files : TakeFiles) (health : PyValue) :
    Except Raised PyValue := do
  let written ← subscript₂ health "transcription" "transcript_written"
  if written.truthy then
    match files.transcript with
    | .file document => do
      let transcript ← reraise (cannotFinalize "transcript.json is unreadable (\x7b\x7d)")
        (fun error => error = .osError ∨ error.isValueError) document
      refuseIf (transcript.asDict.isNone) .attributeError
      refuseIf (transcript.get "schema" ≠ some (text transcriptSchema))
        (.valueError (cannotFinalize
          "transcript.json has no recognized current capture schema"))
      let transcriptHealth := (transcript.get "capture_health").getD .none
      let _ ← reraise (cannotFinalize "transcript health is invalid (\x7b\x7d)")
        Raised.isValueError (validate seconds transcriptHealth true)
      refuseIf (transcriptHealth.equals health = false)
        (.valueError (cannotFinalize "transcript health does not match session health"))
      let digest ← files.sha256 "transcript.json"
      return .dict [("name", text "transcript.json"), ("sha256", text digest)]
    | _ => .error (.valueError (cannotFinalize
        "health records a transcript but transcript.json is missing"))
  else
    match files.transcript with
    | .absent => return .none
    | _ => .error (.valueError (cannotFinalize
        "transcript.json exists but health says no transcript was written"))

def reconcileCaptureArtifacts (seconds : Seconds) (files : TakeFiles) (health : PyValue) :
    Except Raised PyValue := do
  let _ ← validate seconds health false
  let mic ← reconcileLeg files health .mic
  let system ← reconcileLeg files health .system
  let transcript ← reconcileTranscript seconds files health
  return .dict [("legs", .dict [("mic", mic), ("system", system)]), ("transcript", transcript)]

/-! ## Evidence beside the health -/

/-- A count that is an integer and not negative. -/
def isCount (value : PyValue) : Bool := value.asInt.any fun count => 0 ≤ count

def microphoneSchema : String := "capture-microphone/1"

/-- `set(value) - names` is empty. -/
def keysWithin (fields : List (String × PyValue)) (names : List String) : Bool :=
  fields.all fun field => names.contains field.1

/-- `set(value) == names` -/
def keysEqual (fields : List (String × PyValue)) (names : List String) : Bool :=
  keysWithin fields names && names.all fun name => (fields.map Prod.fst).contains name

/-- `build_microphone_identity`, for its checks. -/
def checkMicrophone (index name hostapi : Option PyValue) : Except Raised Unit := do
  refuseIf (index.any isCount = false)
    (.valueError "microphone index must be a non-negative integer")
  refuseIf ((name.bind PyValue.asStr).any (fun name => !Worker.SpeechResults.isBlank name) = false)
    (.valueError "microphone name must be non-empty")
  refuseIf (hostapi.any (fun hostapi => hostapi ≠ .none ∧ isCount hostapi = false) = true)
    (.valueError "microphone hostapi must be a non-negative integer")

def validateMicrophoneIdentity (identity : PyValue) : Except Raised Unit := do
  refuseIf (identity.get "schema" ≠ some (text microphoneSchema))
    (.valueError "microphone identity is absent or uses an unknown schema")
  refuseIf (identity.asDict.any
      (keysWithin · ["schema", "index", "name", "hostapi"]) = false)
    (.valueError "microphone identity has an unknown shape")
  checkMicrophone (identity.get "index") (identity.get "name") (identity.get "hostapi")

def pauseEvidenceSchema : PyValue := text "capture-pauses/1"

/-- The variables of the loop of `validate_pause_evidence`. -/
structure PauseTotals where
  previousEnd : Option ℤ
  total : ℤ

def pauseCount (span : PyValue) (name : String) : Except Raised ℤ :=
  orRefuse ((span.get name).bind PyValue.asInt)
    (.valueError ("pause span " ++ name ++ " must be an integer sample count"))

def maxPauses : Nat := 64

def maxPausedSamples : ℤ := 16000 * 60 * 60 * 24

def validatePause (totals : PauseTotals) (span : PyValue) : Except Raised PauseTotals := do
  refuseIf (span.asDict.any (keysEqual · ["paused_at_samples", "resumed_at_samples"]) = false)
    (.valueError "each pause span needs exactly a start and an end")
  let start ← pauseCount span "paused_at_samples"
  let stop ← pauseCount span "resumed_at_samples"
  refuseIf (start < 0 ∨ stop ≤ start)
    (.valueError "a pause span must start at or after zero and end after it starts")
  refuseIf (totals.previousEnd.any (fun previous => start < previous) = true)
    (.valueError "pause spans must be ordered and may not overlap")
  refuseIf (maxPausedSamples < totals.total + (stop - start))
    (.valueError "recorded pause time exceeds the supported capture duration")
  return ⟨some stop, totals.total + (stop - start)⟩

def validatePauseEvidence (pauses : PyValue) (captureElapsedSamples : Option ℤ) :
    Except Raised Unit := do
  let fields ← orRefuse pauses.asDict (.valueError "pause evidence must be one JSON object")
  refuseIf (keysEqual fields ["schema", "spans"] = false)
    (.valueError "pause evidence has unexpected or missing keys")
  refuseIf (pauses.get "schema" ≠ some pauseEvidenceSchema)
    (.valueError "pause evidence schema must be 'capture-pauses/1'")
  let spans ← orRefuse ((pauses.get "spans").bind PyValue.asList)
    (.valueError "pause spans must be a list")
  refuseIf (maxPauses < spans.length)
    (.valueError "a capture may record at most 64 pause spans")
  let totals ← spans.foldlM validatePause ⟨none, 0⟩
  refuseIf (captureElapsedSamples.any (fun elapsed =>
      totals.previousEnd.any fun previousEnd => elapsed + totals.total < previousEnd) = true)
    (.valueError "a pause span ends after the meeting stopped")

/-! ## The receipt of the session -/

inductive SessionStatus where
  | incomplete
  | complete
  | failed
  | abandoned
deriving DecidableEq

def SessionStatus.value : SessionStatus → String
  | .incomplete => "incomplete"
  | .complete => "complete"
  | .failed => "failed"
  | .abandoned => "abandoned"

/-- What became of the file that was to take the receipt's place. -/
structure Publication where
  placed : Bool
  answer : Except Raised Unit

/-- What is outside the two functions: the files, the quality evidence of the microphone's file
and its check, the rows of the other files, the clock and the writing of the receipt. -/
structure Environment where
  files : TakeFiles
  builtQuality : Except Raised PyValue
  validateQuality : PyValue → Except Raised Unit
  artifacts : Except Raised (List PyValue)
  now : String
  publish : Bool → PyValue → Publication

/-- The evidence that a caller may leave out. -/
structure Evidence where
  quality : Option PyValue
  microphone : Option PyValue
  pauses : Option PyValue

/-- The checks of a receipt that is not `incomplete`: whether the take is usable and the
reconciliation. -/
def finalChecks (seconds : Seconds) (environment : Environment) (health : PyValue)
    (evidence : Evidence) : Except Raised (Bool × PyValue) := do
  let usable ← validate seconds health false
  let reconciliation ← reconcileCaptureArtifacts seconds environment.files health
  checkSome evidence.quality environment.validateQuality
  checkSome evidence.microphone validateMicrophoneIdentity
  checkSome evidence.pauses fun pauses =>
    validatePauseEvidence pauses
      (((health.get "timing").bind fun timing => timing.get "capture_elapsed_samples").bind
        PyValue.asInt)
  return (usable, reconciliation)

def receiptChecks (seconds : Seconds) (environment : Environment) (status : SessionStatus)
    (health : PyValue) (evidence : Evidence) : Except Raised (Bool × PyValue) :=
  if status = .incomplete then .ok (false, .none)
  else finalChecks seconds environment health evidence

/-- The payload of `write_session_manifest`. -/
def sessionPayload (seconds : Seconds) (environment : Environment) (status : SessionStatus)
    (startedAt : String) (health : PyValue) (evidence : Evidence) : Except Raised PyValue := do
  let checked ← receiptChecks seconds environment status health evidence
  refuseIf (status = .complete ∧ checked.1 = false)
    (.valueError "a capture cannot be complete without passing capture-health evidence")
  refuseIf (status = .failed ∧ checked.1 = true)
    (.valueError "a failed capture requires capture-health evidence naming why")
  let artifacts ← environment.artifacts
  let paused := evidence.pauses.toList.filter fun pauses => (pauses.get "spans").any PyValue.truthy
  return .dict ([("schema", text "capture-session/2"), ("status", text status.value),
      ("started_at", text startedAt),
      ("finalized_at", if status = .incomplete then .none else text environment.now),
      ("health", health), ("quality", evidence.quality.getD .none),
      ("microphone", evidence.microphone.getD .none), ("reconciliation", checked.2),
      ("artifacts", .list artifacts)] ++ paused.map fun pauses => ("pauses", pauses))

/-- The receipt that came to stand at its place, and what the call answered. -/
structure Finalization where
  placed : Option PyValue
  answer : Except Raised PyValue

def writeSessionManifest (seconds : Seconds) (environment : Environment) (status : SessionStatus)
    (startedAt : String) (health : PyValue) (evidence : Evidence) (noOverwrite : Bool) :
    Finalization :=
  match sessionPayload seconds environment status startedAt health evidence with
  | .error error => ⟨none, .error error⟩
  | .ok payload =>
    let publication := environment.publish noOverwrite payload
    { placed := if publication.placed then some payload else none
      answer := publication.answer.map fun _ => payload }

def finalizeSession (seconds : Seconds) (environment : Environment) (startedAt : String)
    (health : PyValue) (evidence : Evidence) (abandoned noOverwrite : Bool) : Finalization :=
  match validate seconds health false with
  | .error error => ⟨none, .error error⟩
  | .ok usable =>
    let status : SessionStatus :=
      if abandoned then .abandoned else if usable then .complete else .failed
    match evidence.quality with
    | some _ =>
      writeSessionManifest seconds environment status startedAt health evidence noOverwrite
    | none =>
      match environment.builtQuality with
      | .error error => ⟨none, .error error⟩
      | .ok quality =>
        writeSessionManifest seconds environment status startedAt health
          { evidence with quality := some quality } noOverwrite

/-! ## Complete takes -/

/-- A take of two continuous legs that cover one span, whose files hold what was counted. -/
structure CompleteTake (files : TakeFiles) (m : Measurements) : Prop where
  reached : ∀ leg, minLegSamples ≤ m.samples leg
  together : |m.micSamples - m.systemSamples| ≤
    allowedDifference (max (max m.micSamples m.systemSamples) 0)
  throughout : ∀ leg, m.captureElapsedSamples - m.samples leg ≤
    allowedDifference m.captureElapsedSamples
  continuous : ∀ leg, m.dropouts leg = []
  tap : m.tapErrors = []
  files : ∀ leg, ∃ wav, files.wav leg = .readable wav ∧ wav.channels = 1 ∧
    (wav.sampleRate : ℤ) = rate ∧ wav.sampleWidth = 2 ∧ (wav.frames : ℤ) = m.samples leg ∧
    wav.encoded.length = 2 * wav.frames

variable {m : Measurements} {health : PyValue} {seconds : Seconds} {receipt : PyValue}

theorem measure_samples {arguments : Arguments} (h : measure arguments = .ok m) :
    arguments.micSamples = .int m.micSamples ∧ arguments.systemSamples = .int m.systemSamples := by
  simp only [measure, bind_eq_ok, orRefuse_eq_ok, PyValue.asInt_eq_some] at h
  obtain ⟨micSamples, hmic, systemSamples, hsystem, elapsed, -, -, -, dropouts, -, tapErrors, -,
    requested, -, written, -, micDropouts, -, systemDropouts, -, -, -, hm⟩ := h
  obtain rfl := Except.ok.inj hm
  exact ⟨hmic, hsystem⟩

theorem recordedArguments_samples {legs : PyValue} {arguments : Arguments}
    (h : recordedArguments health = .ok arguments) (hlegs : subscript health "legs" = .ok legs) :
    subscript₂ legs "mic" "samples" = .ok arguments.micSamples ∧
      subscript₂ legs "system" "samples" = .ok arguments.systemSamples := by
  simp only [recordedArguments, hlegs, ok_bind, bind_eq_ok] at h
  obtain ⟨transcription, -, micSamples, hmic, systemSamples, hsystem, elapsed, -, micDropouts, -,
    systemDropouts, -, tapErrors, -, requested, -, written, -, harguments⟩ := h
  obtain rfl := Except.ok.inj harguments
  exact ⟨hmic, hsystem⟩

/-- The samples that a validated document records for a leg. -/
theorem Validated.samples {legs expected : PyValue} (h : Validated seconds health m)
    (leg : MeetingCaptureLeg) (hlegs : subscript health "legs" = .ok legs)
    (hexpected : subscript₂ legs leg.rawValue "samples" = .ok expected) :
    expected = .int (m.samples leg) := by
  obtain ⟨arguments, hrecorded, hm⟩ := h.recorded
  obtain ⟨hmic, hsystem⟩ := recordedArguments_samples hrecorded hlegs
  obtain ⟨hmicSamples, hsystemSamples⟩ := measure_samples hm
  cases leg with
  | mic => exact (Except.ok.inj (hexpected.symm.trans hmic)).trans hmicSamples
  | system => exact (Except.ok.inj (hexpected.symm.trans hsystem)).trans hsystemSamples

theorem equals_int {a b : ℤ} (h : (PyValue.int a).equals (.int b) = true) : a = b := by
  simpa [PyValue.equals, PyValue.number] using h

theorem reconcileLeg_ok {files : TakeFiles} {leg : MeetingCaptureLeg}
    (hvalidated : Validated seconds health m) (h : reconcileLeg files health leg = .ok receipt) :
    ∃ wav, files.wav leg = .readable wav ∧ wav.channels = 1 ∧ (wav.sampleRate : ℤ) = rate ∧
      wav.sampleWidth = 2 ∧ (wav.frames : ℤ) = m.samples leg ∧
      wav.encoded.length = 2 * wav.frames := by
  unfold reconcileLeg at h
  cases hwav : files.wav leg with
  | missing | unreadable => simp [hwav] at h
  | readable wav =>
    simp only [hwav, bind_eq_ok, refuseIf_eq_ok] at h
    obtain ⟨-, hformat, -, hlength, legs, hlegs, expected, hexpected, -, hframes, -⟩ := h
    simp only [not_or, not_not] at hformat hlength
    obtain ⟨hchannels, hrate, hwidth⟩ := hformat
    obtain rfl := hvalidated.samples leg hlegs hexpected
    refine ⟨wav, rfl, hchannels, hrate, hwidth, equals_int (by simpa using hframes), ?_⟩
    rw [hlength, hchannels, hwidth]
    omega

theorem reconcileCaptureArtifacts_ok {files : TakeFiles} (hvalidated : Validated seconds health m)
    (h : reconcileCaptureArtifacts seconds files health = .ok receipt) (leg : MeetingCaptureLeg) :
    ∃ wav, files.wav leg = .readable wav ∧ wav.channels = 1 ∧ (wav.sampleRate : ℤ) = rate ∧
      wav.sampleWidth = 2 ∧ (wav.frames : ℤ) = m.samples leg ∧
      wav.encoded.length = 2 * wav.frames := by
  simp only [reconcileCaptureArtifacts, bind_eq_ok] at h
  obtain ⟨-, -, mic, hmic, system, hsystem, -⟩ := h
  cases leg with
  | mic => exact reconcileLeg_ok hvalidated hmic
  | system => exact reconcileLeg_ok hvalidated hsystem

theorem completeTake_of_blockers {files : TakeFiles} (hvalid : m.Valid)
    (hblockers : blockers m = [])
    (hfiles : ∀ leg, ∃ wav, files.wav leg = .readable wav ∧ wav.channels = 1 ∧
      (wav.sampleRate : ℤ) = rate ∧ wav.sampleWidth = 2 ∧ (wav.frames : ℤ) = m.samples leg ∧
      wav.encoded.length = 2 * wav.frames) : CompleteTake files m := by
  have hall := (blockers_eq_nil_iff hvalid.elapsed).mp hblockers
  simp only [requirements, List.forall_mem_cons, decide_eq_true_eq] at hall
  obtain ⟨⟨hmic, hsystem⟩, ⟨hmicDropouts, hsystemDropouts⟩, htap, hspan, ⟨hmicWall, hsystemWall⟩,
    -, -⟩ := hall
  refine ⟨?_, hspan, ?_, ?_, htap, hfiles⟩
  · intro leg
    cases leg with
    | mic => exact hmic
    | system => exact hsystem
  · intro leg
    cases leg with
    | mic => exact (le_max_left _ _).trans hmicWall
    | system => exact (le_max_left _ _).trans hsystemWall
  · intro leg
    cases leg with
    | mic => exact hmicDropouts
    | system => exact hsystemDropouts

/-- A receipt that says `complete` is written for a complete take only. -/
theorem sessionPayload_complete {environment : Environment} {status : SessionStatus}
    {startedAt : String} {payload : PyValue} {evidence : Evidence}
    (h : sessionPayload seconds environment status startedAt health evidence = .ok payload)
    (hcomplete : payload.get "status" = some (text "complete")) :
    ∃ m, Validated seconds health m ∧ CompleteTake environment.files m := by
  simp only [sessionPayload, bind_eq_ok, refuseIf_eq_ok] at h
  obtain ⟨checked, hchecked, -, hguard, -, -, artifacts, -, hpayload⟩ := h
  obtain rfl := Except.ok.inj hpayload
  have hvalue : text status.value = text "complete" := Option.some.inj hcomplete
  obtain rfl : status = .complete := by
    cases status with
    | complete => rfl
    | incomplete | failed | abandoned => exact absurd hvalue (by decide)
  rw [receiptChecks, if_neg (by decide)] at hchecked
  simp only [finalChecks, bind_eq_ok] at hchecked
  obtain ⟨usable, hvalidate, reconciliation, hreconcile, -, -, -, -, -, -, hanswer⟩ := hchecked
  obtain rfl := Except.ok.inj hanswer
  have husable : usable = true := by simpa using hguard
  obtain ⟨m, hvalidated, hiff⟩ := validate_eq_ok hvalidate
  exact ⟨m, hvalidated, completeTake_of_blockers hvalidated.valid (hiff.mp husable)
    (reconcileCaptureArtifacts_ok hvalidated hreconcile)⟩

theorem writeSessionManifest_placed {environment : Environment} {status : SessionStatus}
    {startedAt : String} {evidence : Evidence} {noOverwrite : Bool}
    (h : (writeSessionManifest seconds environment status startedAt health evidence
      noOverwrite).placed = some receipt) :
    sessionPayload seconds environment status startedAt health evidence = .ok receipt := by
  unfold writeSessionManifest at h
  cases hpayload : sessionPayload seconds environment status startedAt health evidence with
  | error => simp [hpayload] at h
  | ok =>
    simp only [hpayload] at h
    split at h
    · rw [Option.some.inj h]
    · cases h

/-- A verdict can only be earned: what is built is usable exactly when every requirement holds,
and is accepted; what is accepted is equal to what would be built; and a receipt says `complete`
for complete takes only. -/
theorem verdict_earned (seconds : Seconds) :
    (∀ arguments health, build seconds arguments = .ok health →
      ∃ usable, Earned health usable ∧ validate seconds health false = .ok usable) ∧
    (∀ health context,
      (∃ error, validate seconds health context = .error error ∧ error.isValueError = true) ∨
      ∃ rebuilt usable, rebuild seconds health = .ok rebuilt ∧ health.equals rebuilt = true ∧
        validate seconds health context = .ok usable) ∧
    ∀ environment startedAt health evidence abandoned noOverwrite receipt,
      (finalizeSession seconds environment startedAt health evidence abandoned
        noOverwrite).placed = some receipt →
      receipt.get "status" = some (text "complete") →
      ∃ m, Validated seconds health m ∧ CompleteTake environment.files m := by
  refine ⟨fun arguments health h => validate_of_build h, ?_, ?_⟩
  · intro health context
    cases hvalidate : validate seconds health context with
    | error error => exact .inl ⟨error, rfl, validate_raises seconds health context error hvalidate⟩
    | ok usable =>
      obtain ⟨m, hvalidated, -⟩ := validate_eq_ok hvalidate
      obtain ⟨micDuration, systemDuration, elapsed, hrebuild, hequal⟩ := hvalidated.equal
      exact .inr ⟨_, usable, hrebuild, hequal, rfl⟩
  · intro environment startedAt health evidence abandoned noOverwrite receipt hplaced hcomplete
    unfold finalizeSession at hplaced
    cases hvalidate : validate seconds health false with
    | error error => simp [hvalidate] at hplaced
    | ok usable =>
      simp only [hvalidate] at hplaced
      cases hquality : evidence.quality with
      | some quality =>
        simp only [hquality] at hplaced
        exact sessionPayload_complete (writeSessionManifest_placed hplaced) hcomplete
      | none =>
        cases hbuilt : environment.builtQuality with
        | error error => simp [hquality, hbuilt] at hplaced
        | ok quality =>
          simp only [hquality, hbuilt] at hplaced
          exact sessionPayload_complete (writeSessionManifest_placed hplaced) hcomplete

/-- A take of one silent block on each leg. -/
def oneBlock : Measurements := ⟨3200, 3200, 3200, [], [], [], false, false⟩

def exactSeconds : Seconds := fun samples => some (.finite (samples / 16000))

def oneBlockHealth : PyValue :=
  document oneBlock (.float (.finite (1 / 5))) (.float (.finite (1 / 5)))
    (.float (.finite (1 / 5)))

def quietRoom : Environment where
  files := ⟨fun _ => .readable ⟨1, 16000, 2, 3200, List.replicate 6400 0⟩, .absent,
    fun _ => .ok ""⟩
  builtQuality := .ok .none
  validateQuality _ := .ok ()
  artifacts := .ok []
  now := ""
  publish _ _ := ⟨true, .ok ()⟩

theorem verdict_earned_block :
    (∃ usable, Earned oneBlockHealth usable ∧
      validate exactSeconds oneBlockHealth false = .ok usable) ∧
    ∃ m, Validated exactSeconds oneBlockHealth m ∧ CompleteTake quietRoom.files m := by
  have hstatus : ((finalizeSession exactSeconds quietRoom "" oneBlockHealth ⟨none, none, none⟩
      false false).placed.bind fun receipt => receipt.get "status") = some (text "complete") := by
    decide +kernel
  obtain ⟨receipt, hplaced, hcomplete⟩ := Option.bind_eq_some_iff.mp hstatus
  exact ⟨(verdict_earned exactSeconds).1 oneBlock.arguments oneBlockHealth (by decide +kernel),
    (verdict_earned exactSeconds).2.2 quietRoom "" oneBlockHealth ⟨none, none, none⟩ false false
      receipt hplaced hcomplete⟩

end CaptureHealth

end YawnApp.Capture
