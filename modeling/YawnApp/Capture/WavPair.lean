import YawnApp.Capture.Wav
import YawnApp.Foundation.Refusal

set_option autoImplicit false

/-!
# Finalizing a pair of WAV files

`PrivateWAVPair.finish` closes both legs and promotes them together: it renames
the microphone's partial file, then the system's, and takes the first rename back
when the second fails.  Last it synchronizes the directory.  When that fails it
throws with both files promoted: the one step after the renames that it does not
take them back for.
-/

namespace YawnApp.Capture

open YawnApp.Foundation BoundedWAVWriter CaptureDirectory

inductive MeetingCaptureStopReason where
  | microphoneConfigurationChanged
deriving DecidableEq

structure MeetingCaptureReceipt where
  micSamples : Nat
  systemSamples : Nat
  stopReason : Option MeetingCaptureStopReason := none
deriving DecidableEq

def MeetingCaptureReceipt.samples (receipt : MeetingCaptureReceipt) : MeetingCaptureLeg → Nat
  | .mic => receipt.micSamples
  | .system => receipt.systemSamples

/-- A pair, with the writer of each leg. -/
structure PrivateWAVPair where
  writer : MeetingCaptureLeg → BoundedWAVWriter
  finished : Bool

def PrivateWAVPair.withWriter (pair : PrivateWAVPair) (leg : MeetingCaptureLeg)
    (writer : BoundedWAVWriter) : PrivateWAVPair :=
  { pair with writer := fun other => if other = leg then writer else pair.writer other }

namespace PrivateWAVPair

/-! ## Opening -/

/-- The answers to `init`: of the `dup`, of each `fstatat` (that it answers whether the
name is taken), and for each leg of the `openat`, the `fchmod` and the writes of the
header. -/
structure OpenAnswers where
  dup : Bool
  stat : WavName → Bool
  create : MeetingCaptureLeg → Bool
  chmod : MeetingCaptureLeg → Bool
  header : MeetingCaptureLeg → List WriteAnswer

/-- `requireAbsent`. -/
def requireAbsent (answers : OpenAnswers) (directory : CaptureDirectory) (name : WavName) :
    Except MeetingCaptureFault Unit := do
  refuseIf (¬ answers.stat name)
    ⟨"capture_path_check_failed", none, "cannot inspect " ++ name.text⟩
  refuseIf (directory name).isSome
    ⟨"capture_no_overwrite", none, "refusing to replace existing " ++ name.text⟩

/-- `BoundedWAVWriter.init`. -/
def createWriter (answers : OpenAnswers) (maxPendingBytes : Nat) (leg : MeetingCaptureLeg)
    (directory : CaptureDirectory) : Except MeetingCaptureFault BoundedWAVWriter × CaptureDirectory :=
  let name := WavName.partialWav leg
  if (directory name).isSome then
    (.error ⟨"capture_no_overwrite", some leg, "cannot create private partial WAV"⟩, directory)
  else if ¬ answers.create leg then
    (.error ⟨"wav_open_failed", some leg, "cannot create private partial WAV"⟩, directory)
  else if ¬ answers.chmod leg then
    (.error ⟨"wav_mode_failed", some leg, "cannot enforce WAV mode 0600"⟩,
      directory.put name (some []))
  else
    match writeAll (answers.header leg) [] (header 0) with
    | (file, false) =>
      (.error ⟨"wav_write_failed", none, "WAV write failed"⟩, directory.put name (some file))
    | (file, true) =>
      (.ok (BoundedWAVWriter.new leg maxPendingBytes), directory.put name (some file))

/-- The four names `init` checks, in its order. -/
def checkedNames : List WavName :=
  [.finalWav .mic, .finalWav .system, .partialWav .mic, .partialWav .system]

/-- `init`. -/
def openPair (answers : OpenAnswers) (maxPendingBytes : Nat) (directory : CaptureDirectory) :
    Except MeetingCaptureFault PrivateWAVPair × CaptureDirectory :=
  if ¬ answers.dup then
    (.error ⟨"capture_directory_unavailable", none, "cannot retain capture directory"⟩, directory)
  else
    match checkedNames.forM (requireAbsent answers directory) with
    | .error fault => (.error fault, directory)
    | .ok () =>
      match createWriter answers maxPendingBytes .mic directory with
      | (.error fault, directory) => (.error fault, directory)
      | (.ok mic, directory) =>
        match createWriter answers maxPendingBytes .system directory with
        | (.error fault, directory) => (.error fault, directory)
        | (.ok system, directory) =>
          (.ok ⟨fun leg => match leg with | .mic => mic | .system => system, false⟩, directory)

/-! ## Promotion -/

inductive RenameError where
  | exists_
  | other

/-- `renameatx_np` with `RENAME_EXCL`: it replaces no file. -/
def renameExclusive (works : Bool) (directory : CaptureDirectory) (source target : WavName) :
    Except RenameError CaptureDirectory :=
  if ¬ works then .error .other
  else
    match directory source with
    | none => .error .other
    | some file =>
      if (directory target).isSome then .error .exists_
      else .ok ((directory.put target (some file)).put source none)

/-- `promote`. -/
def promoteLeg (works : Bool) (directory : CaptureDirectory) (leg : MeetingCaptureLeg) :
    Except MeetingCaptureFault CaptureDirectory :=
  let source := WavName.partialWav leg
  let target := WavName.finalWav leg
  match renameExclusive works directory source target with
  | .ok directory => .ok directory
  | .error error =>
    .error ⟨match error with
      | .exists_ => "capture_no_overwrite"
      | .other => "wav_promote_failed", some leg, "cannot promote " ++ source.text ++ " to " ++ target.text⟩

def rollbackCode : String := "wav_promotion_rollback_failed"

/-- `rollbackPromotion`. -/
def rollbackPromotion (works : Bool) (directory : CaptureDirectory) (leg : MeetingCaptureLeg) :
    Except MeetingCaptureFault CaptureDirectory :=
  match renameExclusive works directory (.finalWav leg) (.partialWav leg) with
  | .ok directory => .ok directory
  | .error _ =>
    .error ⟨rollbackCode, some leg, "cannot restore the first leg after pair promotion failed"⟩

/-! ## Finishing -/

/-- The answers to `finish`: to the two writers, to the renames, to the rename back and
to the `fsync` of the directory. -/
structure FinishAnswers where
  close : MeetingCaptureLeg → CloseAnswers
  promote : MeetingCaptureLeg → Bool
  rollback : Bool
  syncDirectory : Bool

/-- `finish` of one writer, on its file. -/
def finishWriter (answers : FinishAnswers) (leg : MeetingCaptureLeg) (pair : PrivateWAVPair)
    (directory : CaptureDirectory) :
    Except MeetingCaptureFault Unit × PrivateWAVPair × CaptureDirectory :=
  match directory (.partialWav leg) with
  | none =>
    (.error (readbackFault leg "final WAV cannot be reopened"), pair, directory)
  | some file =>
    let (result, writer, file) := (pair.writer leg).finish (answers.close leg) file
    (result, pair.withWriter leg writer, directory.put (.partialWav leg) (some file))

/-- The two renames, with the first taken back when the second fails. -/
def promoteBoth (answers : FinishAnswers) (directory : CaptureDirectory) :
    Option MeetingCaptureFault × CaptureDirectory :=
  match promoteLeg (answers.promote .mic) directory .mic with
  | .error fault => (some fault, directory)
  | .ok promoted =>
    match promoteLeg (answers.promote .system) promoted .system with
    | .ok directory => (none, directory)
    | .error fault =>
      match rollbackPromotion answers.rollback promoted .mic with
      | .ok directory => (some fault, directory)
      | .error fault => (some fault, promoted)

/-- The first of two errors. -/
def firstError : Except MeetingCaptureFault Unit → Except MeetingCaptureFault Unit →
    Option MeetingCaptureFault
  | .error fault, _ => some fault
  | .ok (), .error fault => some fault
  | .ok (), .ok () => none

/-- The end of `finish`, when both legs are closed. -/
def finishPromotion (promote : Bool) (answers : FinishAnswers) (receipt : MeetingCaptureReceipt)
    (directory : CaptureDirectory) :
    Except MeetingCaptureFault MeetingCaptureReceipt × CaptureDirectory :=
  if promote then
    let (promotionError, directory) := promoteBoth answers directory
    if ¬ answers.syncDirectory then
      (.error ⟨"capture_directory_sync_failed", none,
        "capture directory could not be synchronized"⟩, directory)
    else
      match promotionError with
      | some fault => (.error fault, directory)
      | none => (.ok receipt, directory)
  else (.ok receipt, directory)

/-- `finish`. -/
def finish (promote : Bool) (answers : FinishAnswers) (pair : PrivateWAVPair)
    (directory : CaptureDirectory) :
    Except MeetingCaptureFault MeetingCaptureReceipt × PrivateWAVPair × CaptureDirectory :=
  if pair.finished then
    (.error ⟨"wav_already_finalized", none, "capture WAV pair was finalized twice"⟩, pair, directory)
  else
    let pair := { pair with finished := true }
    let (micResult, pair, directory) := pair.finishWriter answers .mic directory
    let (systemResult, pair, directory) := pair.finishWriter answers .system directory
    match firstError micResult systemResult with
    | some fault => (.error fault, pair, directory)
    | none =>
      let receipt : MeetingCaptureReceipt :=
        { micSamples := (pair.writer .mic).frames
          systemSamples := (pair.writer .system).frames }
      let (result, directory) := finishPromotion promote answers receipt directory
      (result, pair, directory)

end PrivateWAVPair

/-! ## A take -/

/-- A pair while it is open, with the blocks that `append` accepted of each leg. -/
structure Take where
  pair : PrivateWAVPair
  directory : CaptureDirectory
  accepted : MeetingCaptureLeg → List Bytes

/-- What happens before `finish`, in any order: a block is offered, a queue writes its
next block, or something else puts a file under a final name. -/
inductive TakeStep where
  | append (leg : MeetingCaptureLeg) (data : Bytes)
  | runBlock (leg : MeetingCaptureLeg) (answers : BlockAnswers)
  | appear (leg : MeetingCaptureLeg) (file : Bytes)

namespace Take

def step (take : Take) : TakeStep → Take
  | .append leg data =>
    let (accepted, writer) := (take.pair.writer leg).append data
    { take with
      pair := take.pair.withWriter leg writer
      accepted := fun other =>
        if other = leg ∧ accepted then take.accepted leg ++ [data] else take.accepted other }
  | .runBlock leg answers =>
    match take.directory (.partialWav leg) with
    | none => take
    | some file =>
      let (writer, file) := (take.pair.writer leg).runBlock file answers
      { take with
        pair := take.pair.withWriter leg writer
        directory := take.directory.put (.partialWav leg) (some file) }
  | .appear leg file =>
    if (take.directory (.finalWav leg)).isSome then take
    else { take with directory := take.directory.put (.finalWav leg) (some file) }

def run (take : Take) (steps : List TakeStep) : Take := steps.foldl step take

/-- The invariant of a take: each leg has its partial file, which is as its writer
counts it. -/
structure Open (take : Take) : Prop where
  unfinished : take.pair.finished = false
  legs : ∀ leg, ∃ file, take.directory (.partialWav leg) = some file ∧
    Healthy (take.accepted leg) (take.pair.writer leg) file

/-- Every step keeps it. -/
theorem Open.step {take : Take} (h : take.Open) (step : TakeStep) : (take.step step).Open := by
  cases step with
  | append leg data =>
    refine ⟨h.unfinished, fun other => ?_⟩
    obtain ⟨file, hfile, hhealthy⟩ := h.legs other
    refine ⟨file, hfile, ?_⟩
    by_cases hleg : other = leg
    · subst hleg
      simpa [Take.step, PrivateWAVPair.withWriter] using hhealthy.append data
    · simpa [Take.step, PrivateWAVPair.withWriter, hleg] using hhealthy
  | runBlock leg answers =>
    obtain ⟨written, hwritten, hsound⟩ := h.legs leg
    simp only [Take.step, hwritten]
    refine ⟨h.unfinished, fun other => ?_⟩
    by_cases hleg : other = leg
    · subst hleg
      exact ⟨_, put_self _ _ _, by
        simpa [PrivateWAVPair.withWriter] using hsound.runBlock answers⟩
    · obtain ⟨file, hfile, hhealthy⟩ := h.legs other
      refine ⟨file, ?_, by simpa [PrivateWAVPair.withWriter, hleg] using hhealthy⟩
      rw [← hfile]
      exact put_partial_of_ne take.directory hleg _
  | appear leg file =>
    unfold Take.step
    dsimp only
    split
    · exact h
    · refine ⟨h.unfinished, fun other => ?_⟩
      obtain ⟨file, hfile, hhealthy⟩ := h.legs other
      exact ⟨file, by simpa using hfile, hhealthy⟩

theorem Open.run {take : Take} (h : take.Open) (steps : List TakeStep) : (take.run steps).Open := by
  induction steps generalizing take with
  | nil => exact h
  | cons step steps ih => exact ih (h.step step)

/-- Only something else puts a file under a final name. -/
theorem final_step (take : Take) {leg : MeetingCaptureLeg} {step : TakeStep}
    (hstep : ∀ file, step ≠ .appear leg file) :
    (take.step step).directory (.finalWav leg) = take.directory (.finalWav leg) := by
  cases step with
  | append => rfl
  | runBlock =>
    unfold Take.step
    dsimp only
    split
    · rfl
    · simp
  | appear other file =>
    unfold Take.step
    dsimp only
    split
    · rfl
    · refine put_final_of_ne take.directory (fun heq => ?_) _
      subst heq
      exact hstep file rfl

theorem final_run {leg : MeetingCaptureLeg} {steps : List TakeStep}
    (hsteps : ∀ file, .appear leg file ∉ steps) (take : Take) :
    (take.run steps).directory (.finalWav leg) = take.directory (.finalWav leg) := by
  induction steps generalizing take with
  | nil => rfl
  | cons step steps ih =>
    have hfirst : ∀ file, step ≠ .appear leg file := fun file heq =>
      hsteps file (by rw [heq]; exact List.mem_cons_self)
    have hrest : ∀ file, .appear leg file ∉ steps := fun file hmem =>
      hsteps file (List.mem_cons_of_mem step hmem)
    exact (ih hrest (take.step step)).trans (final_step take hfirst)

end Take

namespace PrivateWAVPair

/-! ## What opening leaves -/

variable {directory : CaptureDirectory} {leg : MeetingCaptureLeg} {after : CaptureDirectory}
  {answers : OpenAnswers}

/-- A writer that was created has its header in its partial file, and nothing else
was changed. -/
theorem createWriter_eq_ok {maxPendingBytes : Nat} {writer : BoundedWAVWriter}
    (h : createWriter answers maxPendingBytes leg directory = (.ok writer, after)) :
    writer = BoundedWAVWriter.new leg maxPendingBytes ∧
      after = directory.put (.partialWav leg) (some (header 0)) := by
  unfold createWriter at h
  dsimp only at h
  split at h
  · cases h
  · split at h
    · cases h
    · split at h
      · cases h
      · split at h
        · cases h
        · rename_i file hwritten
          cases h
          rw [writeAll_eq_true _ hwritten]
          exact ⟨rfl, rfl⟩

theorem createWriter_final (answers : OpenAnswers) (maxPendingBytes : Nat)
    (leg other : MeetingCaptureLeg) (directory : CaptureDirectory) :
    (createWriter answers maxPendingBytes leg directory).2 (.finalWav other) =
      directory (.finalWav other) := by
  unfold createWriter
  dsimp only
  split
  · rfl
  · split
    · rfl
    · split
      · simp
      · split <;> simp

/-- `init` leaves the final names as they are, whatever it answers. -/
theorem openPair_final (answers : OpenAnswers) (maxPendingBytes : Nat)
    (directory : CaptureDirectory) (leg : MeetingCaptureLeg) :
    (openPair answers maxPendingBytes directory).2 (.finalWav leg) = directory (.finalWav leg) := by
  unfold openPair
  split
  · rfl
  · split
    · rfl
    · have hmic := createWriter_final answers maxPendingBytes .mic leg directory
      split
      · rename_i heq
        rw [heq] at hmic
        exact hmic
      · rename_i first heq
        rw [heq] at hmic
        have hsystem := createWriter_final answers maxPendingBytes .system leg first
        split <;> rename_i heq' <;> rw [heq'] at hsystem <;> exact hsystem.trans hmic

theorem requireAbsent_eq_ok {name : WavName} (h : requireAbsent answers directory name = .ok ()) :
    directory name = none := by
  unfold requireAbsent at h
  rw [check_bind_eq_ok, refuseIf_eq_ok] at h
  simpa using h.2

/-- A pair that was opened has two empty legs, and neither final name is taken. -/
theorem openPair_eq_ok {maxPendingBytes : Nat} {pair : PrivateWAVPair}
    (h : openPair answers maxPendingBytes directory = (.ok pair, after)) :
    (Take.mk pair after fun _ => []).Open ∧ ∀ leg, after (.finalWav leg) = none := by
  have hfinal := openPair_final answers maxPendingBytes directory
  rw [h] at hfinal
  unfold openPair at h
  split at h
  · cases h
  · split at h
    · cases h
    · rename_i hchecked
      have habsent : ∀ leg, directory (.finalWav leg) = none := by
        intro leg
        refine requireAbsent_eq_ok (forM_eq_ok.mp hchecked _ ?_)
        cases leg <;> simp [checkedNames]
      split at h
      · cases h
      · rename_i mic first hmic
        split at h
        · cases h
        · rename_i system second hsystem
          cases h
          obtain ⟨rfl, rfl⟩ := createWriter_eq_ok hmic
          obtain ⟨rfl, rfl⟩ := createWriter_eq_ok hsystem
          refine ⟨⟨rfl, fun leg => ⟨header 0, ?_, ?_⟩⟩, fun leg => (hfinal leg).trans (habsent leg)⟩
          · cases leg with
            | mic => simp [put_partial_of_ne]
            | system => simp
          · cases leg <;> exact Healthy.new _ _

/-! ## What finishing leaves -/

/-- `finish` of a writer changes its file only, and that file is the accepted blocks
if it returns. -/
theorem finishWriter_spec (answers : FinishAnswers) (pair : PrivateWAVPair) {file : Bytes}
    {accepted : List Bytes} (hfile : directory (.partialWav leg) = some file)
    (h : Healthy accepted (pair.writer leg) file) :
    ∃ writer written, pair.finishWriter answers leg directory =
        (((pair.writer leg).finish (answers.close leg) file).1, pair.withWriter leg writer,
          directory.put (.partialWav leg) (some written)) ∧
      (((pair.writer leg).finish (answers.close leg) file).1 = .ok () →
        Writable accepted ∧ written = wavFile accepted ∧
          writer.frames * 2 = accepted.flatten.length) := by
  unfold finishWriter
  rw [hfile]
  dsimp only
  obtain ⟨⟨result, writer, written⟩, hout⟩ :
      ∃ out, (pair.writer leg).finish (answers.close leg) file = out := ⟨_, rfl⟩
  rw [hout]
  refine ⟨writer, written, rfl, fun hok => ?_⟩
  subst hok
  exact finish_eq_ok h hout

/-- A promotion whose rename works leaves the file under the final name, which was
free. -/
theorem renameExclusive_cases (works : Bool) (target : WavName) {source : WavName} {file : Bytes}
    (hfile : directory source = some file) :
    (works = true ∧ directory target = none ∧ renameExclusive works directory source target =
        .ok ((directory.put target (some file)).put source none)) ∨
      (¬ (works = true ∧ directory target = none) ∧
        ∃ error, renameExclusive works directory source target = .error error) := by
  unfold renameExclusive
  rw [hfile]
  cases works with
  | false => exact .inr ⟨by simp, _, rfl⟩
  | true =>
    cases htarget : directory target with
    | none => exact .inl ⟨rfl, rfl, rfl⟩
    | some => exact .inr ⟨by simp, _, rfl⟩

/-- What a directory is after both renames. -/
def promoted (directory : CaptureDirectory) (mic system : Bytes) : CaptureDirectory :=
  (((directory.put (.finalWav .mic) (some mic)).put (.partialWav .mic) none).put
    (.finalWav .system) (some system)).put (.partialWav .system) none

/-- What it is after the first. -/
def micPromoted (directory : CaptureDirectory) (mic : Bytes) : CaptureDirectory :=
  (directory.put (.finalWav .mic) (some mic)).put (.partialWav .mic) none

/-- Both renames work, or the first does and the rename back does not. -/
def PromotionStands (answers : FinishAnswers) (directory : CaptureDirectory) : Prop :=
  answers.promote .mic = true ∧ directory (.finalWav .mic) = none ∧
    ((answers.promote .system = true ∧ directory (.finalWav .system) = none) ∨
      answers.rollback = false)

/-- What the promotion of both legs comes to. -/
inductive PromotionOutcome (answers : FinishAnswers) (directory : CaptureDirectory)
    (mic system : Bytes) : Option MeetingCaptureFault × CaptureDirectory → Prop where
  /-- nothing is promoted, or what was is renamed back -/
  | nothing {fault : MeetingCaptureFault} (hcode : fault.code ≠ rollbackCode)
      (hstands : ¬ PromotionStands answers directory) :
      PromotionOutcome answers directory mic system (some fault, directory)
  /-- both legs are promoted -/
  | both (hstands : PromotionStands answers directory)
      (hfree : ∀ leg, directory (.finalWav leg) = none) :
      PromotionOutcome answers directory mic system (none, promoted directory mic system)
  /-- the first leg could not be renamed back -/
  | half {fault : MeetingCaptureFault} (hcode : fault.code = rollbackCode)
      (hstands : PromotionStands answers directory) (hfree : directory (.finalWav .mic) = none) :
      PromotionOutcome answers directory mic system (some fault, micPromoted directory mic)

theorem promoteLeg_of_ok {works : Bool}
    (h : renameExclusive works directory (.partialWav leg) (.finalWav leg) = .ok after) :
    promoteLeg works directory leg = .ok after := by
  unfold promoteLeg
  dsimp only
  rw [h]

theorem promoteLeg_of_error {works : Bool} {error : RenameError}
    (h : renameExclusive works directory (.partialWav leg) (.finalWav leg) = .error error) :
    ∃ fault, promoteLeg works directory leg = .error fault ∧ fault.code ≠ rollbackCode := by
  unfold promoteLeg
  dsimp only
  rw [h]
  refine ⟨_, rfl, ?_⟩
  cases error <;> simp [rollbackCode]

/-- The rename back leaves the directory as it was. -/
theorem micPromoted_put_back {mic : Bytes} (hmic : directory (.partialWav .mic) = some mic)
    (hfree : directory (.finalWav .mic) = none) :
    ((micPromoted directory mic).put (.partialWav .mic) (some mic)).put (.finalWav .mic) none =
      directory := by
  funext name
  unfold micPromoted put
  by_cases hfinal : name = .finalWav .mic
  · rw [if_pos hfinal, hfinal, hfree]
  · by_cases hpartial : name = .partialWav .mic
    · rw [if_neg hfinal, if_pos hpartial, hpartial, hmic]
    · simp [hfinal, hpartial]

theorem promoteBoth_outcome (answers : FinishAnswers) {mic system : Bytes}
    (hmic : directory (.partialWav .mic) = some mic)
    (hsystem : directory (.partialWav .system) = some system) :
    PromotionOutcome answers directory mic system (promoteBoth answers directory) := by
  unfold promoteBoth
  rcases renameExclusive_cases (answers.promote .mic) (.finalWav .mic) hmic with
    ⟨hworks, hfree, hrename⟩ | ⟨hfails, error, hrename⟩
  · have hrename : renameExclusive (answers.promote .mic) directory (.partialWav .mic)
        (.finalWav .mic) = .ok (micPromoted directory mic) := hrename
    rw [promoteLeg_of_ok hrename]
    dsimp only
    have hsystem' : micPromoted directory mic (.partialWav .system) = some system := by
      simpa [micPromoted, put_partial_of_ne] using hsystem
    have hfinal : micPromoted directory mic (.finalWav .system) = directory (.finalWav .system) := by
      simp [micPromoted, put_final_of_ne]
    rcases renameExclusive_cases (answers.promote .system) (.finalWav .system) hsystem' with
      ⟨hworks', hfree', hrename'⟩ | ⟨hfails', error', hrename'⟩
    · rw [promoteLeg_of_ok hrename']
      rw [hfinal] at hfree'
      refine .both ⟨hworks, hfree, .inl ⟨hworks', hfree'⟩⟩ fun leg => ?_
      cases leg <;> assumption
    · obtain ⟨fault, hfault, hcode⟩ := promoteLeg_of_error hrename'
      rw [hfault]
      dsimp only
      have hback : micPromoted directory mic (.finalWav .mic) = some mic := by
        simp [micPromoted]
      have hgone : micPromoted directory mic (.partialWav .mic) = none := by simp [micPromoted]
      unfold rollbackPromotion
      rcases renameExclusive_cases answers.rollback (.partialWav .mic) hback with
        ⟨hworks'', -, hrename''⟩ | ⟨hfails'', error'', hrename''⟩
      · rw [hrename'']
        dsimp only
        rw [micPromoted_put_back hmic hfree]
        refine .nothing hcode fun hstands => ?_
        rcases hstands.2.2 with hboth | hrollback
        · exact hfails' ⟨hboth.1, hfinal.trans hboth.2⟩
        · rw [hworks''] at hrollback
          cases hrollback
      · rw [hrename'']
        have hrollback : answers.rollback = false := by
          rw [← Bool.not_eq_true]
          exact fun h => hfails'' ⟨h, hgone⟩
        exact .half rfl ⟨hworks, hfree, .inr hrollback⟩ hfree
  · obtain ⟨fault, hfault, hcode⟩ := promoteLeg_of_error hrename
    rw [hfault]
    exact .nothing hcode fun hstands => hfails ⟨hstands.1, hstands.2.1⟩

/-- `finish` of a writer works, on the file it has. -/
def LegCloses (answers : FinishAnswers) (take : Take) (leg : MeetingCaptureLeg) : Prop :=
  ((take.pair.writer leg).finish (answers.close leg)
    ((take.directory (.partialWav leg)).getD [])).1 = .ok ()

/-- The directory once both writers were finished: the final names are as they were
and both partial files are there. -/
structure Closed (take : Take) (directory : CaptureDirectory) : Prop where
  final : ∀ leg, directory (.finalWav leg) = take.directory (.finalWav leg)
  partialFile : ∀ leg, (directory (.partialWav leg)).isSome = true

/-- `finish` closes both writers; it goes on if both work, and then the partial files
are the accepted blocks and the receipt counts them. -/
theorem finish_cases {take : Take} (h : take.Open) (promote : Bool) (answers : FinishAnswers) :
    (¬ (LegCloses answers take .mic ∧ LegCloses answers take .system) ∧
      ∃ fault pair closed, finish promote answers take.pair take.directory =
        (.error fault, pair, closed) ∧ Closed take closed) ∨
    ((∀ leg, LegCloses answers take leg) ∧ ∃ receipt pair closed,
      finish promote answers take.pair take.directory =
        ((finishPromotion promote answers receipt closed).1, pair,
          (finishPromotion promote answers receipt closed).2) ∧ Closed take closed ∧
      (∀ leg, closed (.partialWav leg) = some (wavFile (take.accepted leg))) ∧
      ∀ leg, Writable (take.accepted leg) ∧
        receipt.samples leg * 2 = (take.accepted leg).flatten.length) := by
  obtain ⟨mic, hmic, hmicHealthy⟩ := h.legs .mic
  obtain ⟨system, hsystem, hsystemHealthy⟩ := h.legs .system
  obtain ⟨micWriter, micFile, hmicOut, hmicOk⟩ := finishWriter_spec answers
    { take.pair with finished := true } hmic hmicHealthy
  have hsystem' : take.directory.put (.partialWav .mic) (some micFile) (.partialWav .system) =
      some system := by
    rw [put_partial_of_ne _ (by simp), hsystem]
  obtain ⟨systemWriter, systemFile, hsystemOut, hsystemOk⟩ := finishWriter_spec answers
    (({ take.pair with finished := true } : PrivateWAVPair).withWriter .mic micWriter)
    hsystem' hsystemHealthy
  have hmicCloses : LegCloses answers take .mic ↔
      ((take.pair.writer .mic).finish (answers.close .mic) mic).1 = .ok () := by
    unfold LegCloses
    rw [hmic, Option.getD_some]
  have hsystemCloses : LegCloses answers take .system ↔
      ((take.pair.writer .system).finish (answers.close .system) system).1 = .ok () := by
    unfold LegCloses
    rw [hsystem, Option.getD_some]
  have hclosed : Closed take ((take.directory.put (.partialWav .mic) (some micFile)).put
      (.partialWav .system) (some systemFile)) := by
    refine ⟨fun leg => by simp, fun leg => ?_⟩
    cases leg <;> simp [put_partial_of_ne]
  have hwriter : (({ take.pair with finished := true } : PrivateWAVPair).withWriter .mic
      micWriter).writer .system = take.pair.writer .system := rfl
  unfold finish
  rw [h.unfinished, if_neg Bool.false_ne_true]
  dsimp only
  rw [hmicOut]
  dsimp only
  rw [hsystemOut, hwriter]
  rw [hwriter] at hsystemOk
  rw [hmicCloses, hsystemCloses]
  cases hmicResult : ((take.pair.writer .mic).finish (answers.close .mic) mic).1 with
  | error fault => exact .inl ⟨fun h => (by cases h.1), fault, _, _, rfl, hclosed⟩
  | ok _ =>
    cases hsystemResult : ((take.pair.writer .system).finish (answers.close .system) system).1 with
    | error fault => exact .inl ⟨fun h => (by cases h.2), fault, _, _, rfl, hclosed⟩
    | ok _ =>
      obtain ⟨hmicWritable, hmicFile, hmicFrames⟩ := hmicOk hmicResult
      obtain ⟨hsystemWritable, hsystemFile, hsystemFrames⟩ := hsystemOk hsystemResult
      refine .inr ⟨fun leg => ?_, ⟨micWriter.frames, systemWriter.frames, none⟩, _, _, rfl, hclosed,
        fun leg => ?_, fun leg => ?_⟩
      · cases leg with
        | mic => exact hmicCloses.mpr hmicResult
        | system => exact hsystemCloses.mpr hsystemResult
      · cases leg with
        | mic => simp [put_partial_of_ne, hmicFile]
        | system => simp [hsystemFile]
      · cases leg with
        | mic => exact ⟨hmicWritable, hmicFrames⟩
        | system => exact ⟨hsystemWritable, hsystemFrames⟩

end PrivateWAVPair

/-! ## All or nothing -/

/-- What `finish` is to leave.  A receipt comes with both final files, each the
accepted blocks of its leg behind their header.  Without promotion, and with every
error but that of the rename back, no final file was added and both partial files
are there.  No final file is replaced. -/
structure AllOrNothing (take : Take) (promote : Bool)
    (result : Except MeetingCaptureFault MeetingCaptureReceipt) (after : CaptureDirectory) : Prop where
  all : ∀ receipt, result = .ok receipt → promote = true → ∀ leg,
    after (.finalWav leg) = some (wavFile (take.accepted leg)) ∧
      Writable (take.accepted leg) ∧
      receipt.samples leg * 2 = (take.accepted leg).flatten.length
  nothing : (promote = false ∨ ∃ fault, result = .error fault ∧
      fault.code ≠ PrivateWAVPair.rollbackCode) →
    ∀ leg, after (.finalWav leg) = take.directory (.finalWav leg) ∧
      (after (.partialWav leg)).isSome = true
  kept : ∀ leg file, take.directory (.finalWav leg) = some file →
    after (.finalWav leg) = some file

/-- Both legs were closed, what was promoted stands, and the directory could not be
synchronized. -/
def LeavesUnsynced (take : Take) (promote : Bool) (answers : PrivateWAVPair.FinishAnswers) : Prop :=
  promote = true ∧ (∀ leg, PrivateWAVPair.LegCloses answers take leg) ∧
    PrivateWAVPair.PromotionStands answers take.directory ∧ answers.syncDirectory = false

namespace PrivateWAVPair

/-- What is left when both legs are closed. -/
theorem finishPromotion_allOrNothing_iff {take : Take} {promote : Bool} {answers : FinishAnswers}
    {receipt : MeetingCaptureReceipt} {closed : CaptureDirectory}
    (hcloses : ∀ leg, LegCloses answers take leg) (hclosed : Closed take closed)
    (hfiles : ∀ leg, closed (.partialWav leg) = some (wavFile (take.accepted leg)))
    (hreceipt : ∀ leg, Writable (take.accepted leg) ∧
      receipt.samples leg * 2 = (take.accepted leg).flatten.length) :
    AllOrNothing take promote (finishPromotion promote answers receipt closed).1
        (finishPromotion promote answers receipt closed).2 ↔ ¬ LeavesUnsynced take promote answers := by
  have hstands : PromotionStands answers closed ↔ PromotionStands answers take.directory := by
    unfold PromotionStands
    rw [hclosed.final, hclosed.final]
  have hkept : ∀ leg file, take.directory (.finalWav leg) = some file →
      closed (.finalWav leg) = some file := fun leg file hfile => (hclosed.final leg).trans hfile
  have hnothing : ∀ leg, closed (.finalWav leg) = take.directory (.finalWav leg) ∧
      (closed (.partialWav leg)).isSome = true :=
    fun leg => ⟨hclosed.final leg, hclosed.partialFile leg⟩
  cases promote with
  | false => exact iff_of_true ⟨fun _ _ h => (by cases h), fun _ => hnothing, hkept⟩ fun h => by cases h.1
  | true =>
    unfold finishPromotion
    rw [if_pos rfl]
    have houtcome := promoteBoth_outcome answers (hfiles .mic) (hfiles .system)
    generalize promoteBoth answers closed = out at houtcome ⊢
    cases houtcome with
    | nothing hcode hnot =>
      rw [hstands] at hnot
      refine iff_of_true ?_ fun h => hnot h.2.2.1
      dsimp only
      split
      · exact ⟨fun _ h => (by cases h), fun _ => hnothing, hkept⟩
      · exact ⟨fun _ h => (by cases h), fun _ => hnothing, hkept⟩
    | both hdo hfree =>
      have hfinal : ∀ leg, promoted closed (wavFile (take.accepted .mic))
          (wavFile (take.accepted .system)) (.finalWav leg) = some (wavFile (take.accepted leg)) := by
        intro leg
        cases leg <;> simp [promoted, put_final_of_ne]
      have hbefore : ∀ leg, take.directory (.finalWav leg) = none :=
        fun leg => (hclosed.final leg).symm.trans (hfree leg)
      dsimp only
      cases hsync : answers.syncDirectory with
      | false =>
        rw [if_pos (by simp)]
        refine iff_of_false (fun h => ?_) (not_not.mpr ⟨rfl, hcloses, hstands.mp hdo, hsync⟩)
        have hsame := (h.nothing (.inr ⟨_, rfl, by simp [rollbackCode]⟩) .mic).1
        dsimp only at hsame
        rw [hfinal, hbefore] at hsame
        cases hsame
      | true =>
        rw [if_neg (by simp)]
        refine iff_of_true ⟨fun r hr _ leg => ?_, fun h => ?_, fun leg file hfile => ?_⟩
          fun h => Bool.false_ne_true (h.2.2.2.symm.trans hsync)
        · cases hr
          exact ⟨hfinal leg, hreceipt leg⟩
        · rcases h with h | ⟨fault, h, -⟩ <;> cases h
        · rw [hbefore] at hfile
          cases hfile
    | half hcode hdo hfree =>
      have hfinal : micPromoted closed (wavFile (take.accepted .mic)) (.finalWav .mic) =
          some (wavFile (take.accepted .mic)) := by simp [micPromoted]
      have hbefore : take.directory (.finalWav .mic) = none := (hclosed.final .mic).symm.trans hfree
      dsimp only
      cases hsync : answers.syncDirectory with
      | false =>
        rw [if_pos (by simp)]
        refine iff_of_false (fun h => ?_) (not_not.mpr ⟨rfl, hcloses, hstands.mp hdo, hsync⟩)
        have hsame := (h.nothing (.inr ⟨_, rfl, by simp [rollbackCode]⟩) .mic).1
        dsimp only at hsame
        rw [hfinal, hbefore] at hsame
        cases hsame
      | true =>
        rw [if_neg (by simp)]
        refine iff_of_true ⟨fun r hr => (by cases hr), fun h => ?_, fun leg file hfile => ?_⟩
          fun h => Bool.false_ne_true (h.2.2.2.symm.trans hsync)
        · rcases h with h | ⟨fault, h, hne⟩
          · cases h
          · cases h
            exact absurd hcode hne
        · cases leg with
          | mic =>
            rw [hbefore] at hfile
            cases hfile
          | system =>
            rw [← hfile, ← hclosed.final]
            simp [micPromoted, put_final_of_ne]

end PrivateWAVPair

/-- Whatever the system answers, opening a pair leaves the final names as they are.
A pair that was opened finds them free, and however its blocks are offered and
written, `finish` is all or nothing exactly unless it leaves a promotion that it
could not synchronize. -/
theorem finish_allOrNothing_iff (opening : PrivateWAVPair.OpenAnswers) (maxPendingBytes : Nat)
    (directory : CaptureDirectory) :
    (∀ leg, (PrivateWAVPair.openPair opening maxPendingBytes directory).2 (.finalWav leg) =
      directory (.finalWav leg)) ∧
    ∀ pair, (PrivateWAVPair.openPair opening maxPendingBytes directory).1 = .ok pair →
      ∀ (steps : List TakeStep) (promote : Bool) (answers : PrivateWAVPair.FinishAnswers),
        let take := (Take.mk pair (PrivateWAVPair.openPair opening maxPendingBytes directory).2
          fun _ => []).run steps
        let finished := take.pair.finish promote answers take.directory
        (∀ leg, (∀ file, .appear leg file ∉ steps) → take.directory (.finalWav leg) = none) ∧
          (AllOrNothing take promote finished.1 finished.2.2 ↔
            ¬ LeavesUnsynced take promote answers) := by
  refine ⟨PrivateWAVPair.openPair_final opening maxPendingBytes directory,
    fun pair hpair steps promote answers => ?_⟩
  have hopened := PrivateWAVPair.openPair_eq_ok (show PrivateWAVPair.openPair opening maxPendingBytes
    directory = (.ok pair, _) by rw [← hpair])
  have hopen := hopened.1.run steps
  refine ⟨fun leg hleg => (Take.final_run hleg _).trans (hopened.2 leg), ?_⟩
  rcases PrivateWAVPair.finish_cases hopen promote answers with
    ⟨hnot, fault, after, closed, hfinish, hclosed⟩ |
    ⟨hcloses, receipt, after, closed, hfinish, hclosed, hfiles, hreceipt⟩
  · rw [hfinish]
    refine iff_of_true ⟨fun _ h => (by cases h), fun _ leg =>
      ⟨hclosed.final leg, hclosed.partialFile leg⟩, fun leg file hfile => ?_⟩
      fun h => hnot ⟨h.2.1 .mic, h.2.1 .system⟩
    exact (hclosed.final leg).trans hfile
  · rw [hfinish]
    exact PrivateWAVPair.finishPromotion_allOrNothing_iff hcloses hclosed hfiles hreceipt

/-! ## A promotion that is not synchronized -/

/-- A system that does what it is asked to. -/
def BoundedWAVWriter.BlockAnswers.working : BlockAnswers := ⟨[.wrote 44], 4, 4⟩

def workingOpen : PrivateWAVPair.OpenAnswers where
  dup := true
  stat _ := true
  create _ := true
  chmod _ := true
  header _ := [.wrote 44]

/-- It does so, but the `fsync` of the directory may fail. -/
def workingFinish (syncDirectory : Bool) : PrivateWAVPair.FinishAnswers where
  close _ := ⟨[.working], true, true, true, true⟩
  promote _ := true
  rollback := true
  syncDirectory := syncDirectory

def emptyDirectory : CaptureDirectory := fun _ => none

/-- One frame for each leg. -/
def twoBlocks : List TakeStep := [.append .mic [1, 2], .append .system [3, 4]]

def openedPair : PrivateWAVPair :=
  ⟨fun leg => match leg with | .mic => .new .mic 640 | .system => .new .system 640, false⟩

theorem openPair_working : (PrivateWAVPair.openPair workingOpen 640 emptyDirectory).1 =
    .ok openedPair := rfl

/-- That pair with its two blocks. -/
def twoBlockTake : Take :=
  (Take.mk openedPair (PrivateWAVPair.openPair workingOpen 640 emptyDirectory).2 fun _ => []).run
    twoBlocks

/-- The directory cannot be synchronized: `finish` throws, and both final files are
there. -/
theorem unsynced_promotion_stands :
    (twoBlockTake.pair.finish true (workingFinish false) twoBlockTake.directory).1 =
        .error ⟨"capture_directory_sync_failed", none,
          "capture directory could not be synchronized"⟩ ∧
      twoBlockTake.directory (.finalWav .mic) = none ∧
      (twoBlockTake.pair.finish true (workingFinish false) twoBlockTake.directory).2.2
        (.finalWav .mic) = some (wavFile [[1, 2]]) ∧
      ¬ AllOrNothing twoBlockTake true
        (twoBlockTake.pair.finish true (workingFinish false) twoBlockTake.directory).1
        (twoBlockTake.pair.finish true (workingFinish false) twoBlockTake.directory).2.2 := by
  have hresult : (twoBlockTake.pair.finish true (workingFinish false) twoBlockTake.directory).1 =
      .error ⟨"capture_directory_sync_failed", none,
        "capture directory could not be synchronized"⟩ := by decide +kernel
  have hfile : (twoBlockTake.pair.finish true (workingFinish false) twoBlockTake.directory).2.2
      (.finalWav .mic) = some (wavFile [[1, 2]]) := by decide +kernel
  refine ⟨hresult, rfl, hfile, fun h => ?_⟩
  have hsame := (h.nothing (.inr ⟨_, hresult, by decide⟩) .mic).1
  rw [hfile] at hsame
  cases hsame

/-- The theorem where the directory can be synchronized: the receipt counts one
frame for each leg. -/
theorem finish_allOrNothing_iff_working :
    AllOrNothing twoBlockTake true
      (twoBlockTake.pair.finish true (workingFinish true) twoBlockTake.directory).1
      (twoBlockTake.pair.finish true (workingFinish true) twoBlockTake.directory).2.2 ∧
    (twoBlockTake.pair.finish true (workingFinish true) twoBlockTake.directory).1 = .ok ⟨1, 1, none⟩ := by
  refine ⟨?_, by decide +kernel⟩
  refine (((finish_allOrNothing_iff workingOpen 640 emptyDirectory).2 openedPair openPair_working
    twoBlocks true (workingFinish true)).2).mpr fun h => ?_
  exact Bool.false_ne_true h.2.2.2.symm

end YawnApp.Capture
