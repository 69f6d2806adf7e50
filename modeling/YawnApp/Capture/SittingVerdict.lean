import YawnApp.Capture.SittingStream

set_option autoImplicit false

/-!
# The verdict of a sitting

A sitting is finalized when `finish` found no fault in the coordinator before it
drained the writer and none in the writer after it.  No fault can hide between the
two reads: once the microphone has stopped only the writer stores one in the
coordinator, and it has kept it itself by then.
-/

namespace YawnApp.Capture.SittingCapture

theorem BoundedPipeWriter.drained_iff (w : BoundedPipeWriter) :
    w.Drained ↔ w.queue = [] ∧ w.thread = .idle := by
  unfold Drained
  cases w.thread <;> simp

/-- A fault of the coordinator is one of the writer. -/
def FromWriter (s : SittingCapture) : Prop :=
  s.storedFault.isSome = true → s.writer.storedFault.isSome = true

/-- No fault is stored and the writer is done. -/
structure Sound (s : SittingCapture) (samples : Nat) : Prop where
  stored : s.storedFault = none
  writer : s.writer.storedFault = none
  drained : s.writer.Drained
  frames : s.writer.frames = samples

/-- What `finish` has found out. -/
def Decided (s : SittingCapture) : Prop :=
  match s.control with
  | .draining _ terminalFault | .flushing _ terminalFault => terminalFault = none → s.FromWriter
  | .settling _ terminalFault samples =>
    (terminalFault = none → s.FromWriter) ∧ s.writer.Drained ∧ s.writer.frames = samples
  | .closing _ terminalFault receipt | .emitting _ terminalFault receipt =>
    terminalFault = none → ∀ samples, receipt = some ⟨samples⟩ → s.Sound samples
  | .idle | .starting | .announcing | .stopping _ | .deciding _ => True

structure Verdict (s : SittingCapture) : Prop where
  decided : s.Decided
  finalized : ∀ samples, SittingCaptureUpdate.finalized ⟨samples⟩ ∈ s.updates →
    s.state = .terminal ∧ s.Sound samples

variable {samples : Nat}

/-- A sitting is finalized when no fault was found, from a receipt. -/
theorem terminalUpdate_finalized {ending : Ending} {terminalFault : Option MeetingCaptureFault}
    {receipt : Option SittingCaptureReceipt}
    (h : terminalUpdate ending terminalFault receipt = .finalized ⟨samples⟩) :
    terminalFault = none ∧ receipt = some ⟨samples⟩ := by
  unfold terminalUpdate at h
  split at h
  · cases h
  · cases terminalFault with
    | some => cases h
    | none =>
      cases receipt with
      | none => cases h
      | some =>
        refine ⟨rfl, congrArg some ?_⟩
        dsimp only at h
        split at h
        · exact SittingCaptureUpdate.finalized.inj h
        · cases h

/-- A sitting that was sound to the end streamed every block. -/
theorem Sound.exact {settings : Settings} {s : SittingCapture} {samples : Nat} (h : s.Sound samples)
    (hstreams : Streams settings s) (hsilent : s.Silent) :
    s.pipe = (streamed s.log).flatten ∧ s.pipe.length = 2 * samples := by
  have hblock : s.block = none := by simpa using hsilent.2.1
  obtain ⟨hqueue, hthread⟩ := s.writer.drained_iff.1 h.drained
  rcases hstreams.exact with hlost | hexact
  · simp [Lost, h.stored, h.writer, hblock, hthread] at hlost
  · have hbytes := hexact.bytes
    have hframes := hexact.frames
    simp only [waiting, hthread, hqueue, hblock, Writing.unwritten, List.flatten_nil, Option.map_none,
      Option.getD_none, List.append_nil] at hbytes
    rw [hthread, h.frames] at hframes
    exact ⟨hbytes, hframes.symm⟩

/-! ## Steps of the other threads -/

/-- Once the microphone is silent only the writer changes what the verdict is about. -/
theorem step_of_silent (settings : Settings) {s : SittingCapture} (hsilent : s.Silent) {k : Step}
    (hadvance : ∀ answers, k ≠ .advance answers) (hwrite : ∀ outcome, k ≠ .write outcome) :
    (step settings s k).storedFault = s.storedFault ∧ (step settings s k).writer = s.writer := by
  obtain ⟨-, hblock, hfaults⟩ := hsilent
  have hnone : s.block = none := by simpa using hblock
  have hempty : s.faults = [] := by simpa using hfaults
  by_cases hdeliver : k = .deliver
  · subst hdeliver
    simp [step, deliver, hnone]
  by_cases hrecord : ∃ index, k = .recordFault index
  · obtain ⟨index, rfl⟩ := hrecord
    simp [step, recordFault, hempty]
  · exact (step_spares settings s hadvance).stored hdeliver (fun index heq => hrecord ⟨index, heq⟩) hwrite

theorem write_of_drained (settings : Settings) {s : SittingCapture} (h : s.writer.Drained)
    (outcome : WriteOutcome) : s.write settings outcome = s := by
  obtain ⟨hqueue, hthread⟩ := s.writer.drained_iff.1 h
  unfold write
  rw [hthread, hqueue]

/-- The writer keeps a fault before it reports it. -/
theorem FromWriter.write {settings : Settings} {s : SittingCapture} (h : s.FromWriter)
    (hstreams : Streams settings s) (outcome : WriteOutcome) :
    (s.write settings outcome).FromWriter := by
  cases hthread : s.writer.thread with
  | idle =>
    unfold SittingCapture.write
    rw [hthread]
    cases s.writer.queue <;> exact h
  | writing =>
    unfold SittingCapture.write
    rw [hthread]
    cases outcome with
    | wrote =>
      simp only [writeWholeBlock]
      split <;> exact h
    | interrupted => exact h
    | wouldBlock pollErrno =>
      simp only [writeWholeBlock]
      split
      · cases pollErrno <;> exact h
      · exact h
    | failed => exact h
  | settling data alreadyFailed failure =>
    unfold SittingCapture.write
    rw [hthread]
    intro hstored
    rcases Streams.settle_cases s.writer data alreadyFailed failure with ⟨fault, -, heq⟩ |
      ⟨heq, -⟩ | ⟨-, -, heq⟩ <;> simp only [heq]
    · rfl
    · exact h hstored
    · exact h hstored
  | reporting recording =>
    have hkept := hstreams.kept
    rw [hthread] at hkept
    rw [write_of_reporting settings hthread]
    obtain ⟨storedFault, jobs, hrecord, -⟩ := record_same s recording
    rw [hrecord]
    exact fun _ => hkept

theorem Sound.of_eq {s t : SittingCapture} (h : s.Sound samples)
    (hstored : t.storedFault = s.storedFault) (hwriter : t.writer = s.writer) : t.Sound samples :=
  ⟨hstored.trans h.stored, by rw [hwriter]; exact h.writer, by rw [hwriter]; exact h.drained,
    by rw [hwriter]; exact h.frames⟩

/-- A sound sitting stays sound. -/
theorem Sound.other {settings : Settings} {s : SittingCapture} (h : s.Sound samples)
    (hsilent : s.Silent) {k : Step} (hadvance : ∀ answers, k ≠ .advance answers) :
    (step settings s k).Sound samples := by
  by_cases hwrite : ∃ outcome, k = .write outcome
  · obtain ⟨outcome, rfl⟩ := hwrite
    dsimp only [step]
    rw [write_of_drained settings h.drained]
    exact h
  · obtain ⟨hstored, hwriter⟩ :=
      step_of_silent settings hsilent hadvance fun outcome heq => hwrite ⟨outcome, heq⟩
    exact h.of_eq hstored hwriter

theorem FromWriter.other {settings : Settings} {s : SittingCapture} (h : s.FromWriter)
    (hstreams : Streams settings s) (hsilent : s.Silent) {k : Step}
    (hadvance : ∀ answers, k ≠ .advance answers) : (step settings s k).FromWriter := by
  by_cases hwrite : ∃ outcome, k = .write outcome
  · obtain ⟨outcome, rfl⟩ := hwrite
    exact h.write hstreams outcome
  · obtain ⟨hstored, hwriter⟩ :=
      step_of_silent settings hsilent hadvance fun outcome heq => hwrite ⟨outcome, heq⟩
    simpa only [FromWriter, hstored, hwriter] using h

/-- A drained writer is left alone. -/
theorem writer_of_drained {settings : Settings} {s : SittingCapture} (hdrained : s.writer.Drained)
    (hsilent : s.Silent) {k : Step} (hadvance : ∀ answers, k ≠ .advance answers) :
    (step settings s k).writer = s.writer := by
  by_cases hwrite : ∃ outcome, k = .write outcome
  · obtain ⟨outcome, rfl⟩ := hwrite
    dsimp only [step]
    rw [write_of_drained settings hdrained]
  · exact (step_of_silent settings hsilent hadvance fun outcome heq => hwrite ⟨outcome, heq⟩).2

namespace Verdict

variable {settings : Settings} {s : SittingCapture} {t : SittingCapture}

theorem other (h : Verdict s) (hphase : Phase s) (hstreams : Streams settings s) {k : Step}
    (hadvance : ∀ answers, k ≠ .advance answers) : Verdict (step settings s k) := by
  have hframe := Frame.step settings s hadvance
  refine ⟨?_, fun samples hmem => ?_⟩
  · have hdecided := h.decided
    have hsilent : s.control.Ends → s.Silent := fun hends => (hphase.of_ends hends).2.1
    rw [Decided, hframe.control]
    cases hcontrol : s.control with
    | idle | starting | announcing | stopping | deciding => trivial
    | draining | flushing =>
      simp only [Decided, hcontrol] at hdecided
      exact fun hnone => (hdecided hnone).other hstreams (hsilent (by rw [hcontrol]; trivial)) hadvance
    | settling =>
      simp only [Decided, hcontrol] at hdecided
      obtain ⟨hfaults, hdrained, hframes⟩ := hdecided
      have hquiet := hsilent (by rw [hcontrol]; trivial)
      have hwriter := @writer_of_drained settings s hdrained hquiet k hadvance
      exact ⟨fun hnone => (hfaults hnone).other hstreams hquiet hadvance, by rw [hwriter]; exact hdrained,
        by rw [hwriter]; exact hframes⟩
    | closing =>
      simp only [Decided, hcontrol] at hdecided
      exact fun hnone samples hreceipt =>
        (hdecided hnone samples hreceipt).other (hsilent (by rw [hcontrol]; trivial)) hadvance
    | emitting =>
      simp only [Decided, hcontrol] at hdecided
      exact fun hnone samples hreceipt =>
        (hdecided hnone samples hreceipt).other (hphase.silent_of_terminal (hphase.terminal_of_emitting hcontrol)) hadvance
  · rw [hframe.updates] at hmem
    obtain ⟨hterminal, hsound⟩ := h.finalized samples hmem
    exact ⟨hframe.state.trans hterminal, hsound.other (hphase.silent_of_terminal hterminal) hadvance⟩

/-! ## Steps of the control queue -/

theorem initial (room now : Nat) : Verdict (initial room now) :=
  ⟨trivial, fun _ h => absurd h List.not_mem_nil⟩

/-- While the sitting is under way nothing was finalized. -/
theorem not_finalized (hphase : Phase s) (hcontrol : s.control ≠ .idle) (samples : Nat) :
    SittingCaptureUpdate.finalized ⟨samples⟩ ∉ s.updates := by
  have hannounced : SittingCaptureUpdate.finalized ⟨samples⟩ ∉ s.announced := by
    unfold announced
    split <;> simp
  cases hphase with
  | paused _ _ _ _ _ _ _ updates | arming _ _ _ _ _ _ updates => simp [updates]
  | recording _ _ _ _ _ updates =>
    rcases updates with ⟨-, updates⟩ | ⟨-, updates⟩ <;> simp [updates]
  | stopping _ _ _ _ _ _ updates | ending _ _ _ _ _ _ updates
  | emitting _ _ _ _ _ _ _ _ updates => rwa [updates]
  | ended _ _ _ control => exact absurd control hcontrol

/-- A section that decides nothing yet and emits nothing. -/
theorem early (h : Verdict s) (hdecided : t.Decided) (hupdates : t.updates = s.updates)
    (hsame : s.state = .terminal → t = s) : Verdict t := by
  refine ⟨hdecided, fun samples hmem => ?_⟩
  rw [hupdates] at hmem
  obtain ⟨hterminal, hsound⟩ := h.finalized samples hmem
  rw [hsame hterminal]
  exact ⟨hterminal, hsound⟩

/-- A later section of `finish` that emits nothing. -/
theorem late (hphase : Phase s) (hcontrol : s.control ≠ .idle) (hdecided : t.Decided)
    (hupdates : t.updates = s.updates) : Verdict t :=
  ⟨hdecided, fun samples hmem => absurd (hupdates ▸ hmem) (not_finalized hphase hcontrol samples)⟩

theorem advance (h : Verdict s) (hphase : Phase s) (hsection : Section s t) : Verdict t := by
  have hdecided := h.decided
  cases hsection with
  | waits => exact h
  | passes =>
    exact ⟨trivial, fun samples hmem =>
      ⟨(h.finalized samples hmem).1, (h.finalized samples hmem).2.of_eq rfl rfl⟩⟩
  | activates _ _ _ state | readies _ _ _ state =>
    exact h.early trivial rfl fun hterminal => by simp [state] at hterminal
  | finishes _ _ state => exact h.early trivial rfl fun hterminal => absurd hterminal state
  | announces control =>
    refine ⟨trivial, fun samples hmem => ?_⟩
    have hold : SittingCaptureUpdate.finalized ⟨samples⟩ ∈ s.updates := by simpa [emit] using hmem
    exact absurd hold (not_finalized hphase (by simp [control]) samples)
  | stops _ control => exact late hphase (by simp [control]) trivial rfl
  | decides ending control =>
    refine late hphase (by simp [control]) ?_ rfl
    by_cases hwriter : s.hasWriter = true
    · simp only [Decided, if_pos hwriter]
      intro hnone hstored
      simp [(Option.or_eq_none_iff.1 hnone).2] at hstored
    · simp [Decided, if_neg hwriter]
  | drains _ _ control =>
    simp only [Decided, control] at hdecided
    exact late hphase (by simp [control]) hdecided rfl
  | flushes _ _ control drained =>
    simp only [Decided, control] at hdecided
    exact late hphase (by simp [control]) ⟨hdecided, drained, rfl⟩ rfl
  | settles _ _ samples control =>
    simp only [Decided, control] at hdecided
    obtain ⟨hfaults, hdrained, hframes⟩ := hdecided
    refine late hphase (by simp [control]) (fun hnone other hreceipt => ?_) rfl
    obtain ⟨hterminal, hwriter⟩ := Option.or_eq_none_iff.1 hnone
    have hstored : s.storedFault = none := by
      by_contra hsome
      have := hfaults hterminal (Option.isSome_iff_ne_none.2 hsome)
      simp [hwriter] at this
    obtain rfl : samples = other := by simpa using hreceipt
    exact ⟨hstored, hwriter, hdrained, hframes⟩
  | closes _ _ _ control =>
    simp only [Decided, control] at hdecided
    exact late hphase (by simp [control])
      (fun hnone samples hreceipt => (hdecided hnone samples hreceipt).of_eq rfl rfl) rfl
  | emits _ _ _ control =>
    simp only [Decided, control] at hdecided
    refine ⟨trivial, fun samples hmem => ?_⟩
    rcases List.mem_append.1 hmem with hold | hnew
    · exact absurd hold (not_finalized hphase (by simp [control]) samples)
    · obtain ⟨hnone, hreceipt⟩ := terminalUpdate_finalized (List.mem_singleton.1 hnew).symm
      exact ⟨hphase.terminal_of_emitting control, (hdecided hnone samples hreceipt).of_eq rfl rfl⟩

theorem step (h : Verdict s) (hphase : Phase s) (hstreams : Streams settings s) (k : Step) :
    Verdict (step settings s k) := by
  by_cases hk : ∃ answers, k = .advance answers
  · obtain ⟨answers, rfl⟩ := hk
    exact h.advance hphase (advance_section s answers)
  · exact h.other hphase hstreams fun answers heq => hk ⟨answers, heq⟩

end Verdict

/-! ## Every state of a run -/

/-- What holds in every state of every run. -/
structure Invariant (settings : Settings) (s : SittingCapture) : Prop where
  phase : Phase s
  streams : Streams settings s
  verdict : Verdict s

namespace Invariant

variable {settings : Settings} {s : SittingCapture}

theorem initial (room now : Nat) : Invariant settings (initial room now) :=
  ⟨.initial room now, .initial room now, .initial room now⟩

theorem step (h : Invariant settings s) (k : Step) : Invariant settings (step settings s k) :=
  ⟨h.phase.step settings k, h.streams.step h.phase k, h.verdict.step h.phase h.streams k⟩

theorem run (h : Invariant settings s) (steps : List Step) : Invariant settings (run settings s steps) := by
  induction steps generalizing s with
  | nil => exact h
  | cons k rest ih => exact ih (h.step k)

end Invariant

end YawnApp.Capture.SittingCapture
