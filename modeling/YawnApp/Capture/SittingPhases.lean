import YawnApp.Capture.SittingCapture

set_option autoImplicit false

/-!
# The phases of a sitting

What a step of each thread may change, and the order of the updates in every
interleaving: at most one `recording`, and one terminal update after it.
-/

namespace YawnApp.Capture.SittingCapture

/-! ## What a step of another thread leaves alone -/

/-- A step that is none of the control queue. -/
structure Frame (s t : SittingCapture) : Prop where
  state : t.state = s.state
  control : t.control = s.control
  hasWriter : t.hasWriter = s.hasWriter
  stopDraining : t.stopDraining = s.stopDraining
  updates : t.updates = s.updates
  ready : Note.ready ∈ t.log ↔ Note.ready ∈ s.log
  stopped : Note.stopped ∈ t.log ↔ Note.stopped ∈ s.log
  live : t.live = true → s.live = true
  silent : s.Silent → t.Silent

namespace Frame

theorem refl (s : SittingCapture) : Frame s s :=
  ⟨rfl, rfl, rfl, rfl, rfl, .rfl, .rfl, id, id⟩

/-- A step that changes neither the control nor the microphone. -/
theorem of_eq {s t : SittingCapture} (hstate : t.state = s.state) (hcontrol : t.control = s.control)
    (hhas : t.hasWriter = s.hasWriter) (hdraining : t.stopDraining = s.stopDraining)
    (hupdates : t.updates = s.updates) (hlog : t.log = s.log) (hlive : t.live = s.live)
    (hblock : s.block = none → t.block = none) (hfaults : s.faults = [] → t.faults = []) :
    Frame s t := by
  refine ⟨hstate, hcontrol, hhas, hdraining, hupdates, by rw [hlog], by rw [hlog], by simp [hlive], ?_⟩
  rintro ⟨hsilent, hnone, hempty⟩
  refine ⟨hlive.trans hsilent, ?_, ?_⟩
  · simp [hblock (by simpa using hnone)]
  · simp [hfaults (by simpa using hempty)]

end Frame

/-- `record` stores a fault or schedules a failure. -/
theorem record_cases (s : SittingCapture) (recording : Recording) :
    s.record recording = (s, none) ∧ s.state = .terminal ∨
      (∃ fault, recording = .storing fault ∧ s.state ≠ .terminal ∧
        s.record recording = ({ s with storedFault := s.storedFault.or (some fault) },
          if s.state = .stopping then none else some (.scheduling fault))) ∨
      ∃ fault, recording = .scheduling fault ∧
        s.record recording = (s.schedule (.fail fault), none) := by
  cases recording with
  | storing fault =>
    by_cases hstate : s.state = .terminal
    · exact .inl ⟨by simp [record, hstate], hstate⟩
    · exact .inr (.inl ⟨fault, rfl, hstate, by simp [record, hstate]⟩)
  | scheduling fault => exact .inr (.inr ⟨fault, rfl, rfl⟩)

/-- What `record` may change. -/
theorem record_same (s : SittingCapture) (recording : Recording) :
    ∃ storedFault jobs, (s.record recording).1 = { s with storedFault, jobs } ∧
      (s.storedFault.isSome = true → storedFault.isSome = true) ∧ s.jobs <+: jobs := by
  rcases record_cases s recording with ⟨h, -⟩ | ⟨fault, -, -, h⟩ | ⟨fault, -, h⟩ <;> rw [h]
  · exact ⟨s.storedFault, s.jobs, rfl, id, List.prefix_rfl⟩
  · exact ⟨_, s.jobs, rfl, fun _ => by cases s.storedFault <;> rfl, List.prefix_rfl⟩
  · exact ⟨s.storedFault, _, rfl, id, List.prefix_append _ _⟩

theorem recordFault_same (s : SittingCapture) (index : Nat) :
    ∃ storedFault jobs faults, s.recordFault index = { s with storedFault, jobs, faults } ∧
      (s.faults = [] → faults = []) ∧
      (s.storedFault.isSome = true → storedFault.isSome = true) ∧ s.jobs <+: jobs := by
  unfold recordFault
  cases hfault : s.faults[index]? with
  | none => exact ⟨s.storedFault, s.jobs, s.faults, rfl, id, id, List.prefix_rfl⟩
  | some recording =>
    have hsome : s.faults ≠ [] := by
      rintro hempty
      simp [hempty] at hfault
    obtain ⟨storedFault, jobs, hrecord, hkept⟩ := record_same s recording
    rcases hres : s.record recording with ⟨t, next⟩
    rw [hres] at hrecord
    obtain rfl : t = { s with storedFault, jobs } := hrecord
    cases next with
    | none =>
      exact ⟨storedFault, jobs, s.faults.eraseIdx index, by simp only [hres], (absurd · hsome), hkept⟩
    | some next =>
      exact ⟨storedFault, jobs, s.faults.set index next, by simp only [hres], (absurd · hsome), hkept⟩

/-- The callback that `receive` leaves: none of its own, one that arms, or one that
appends. -/
theorem receive_cases (s : SittingCapture) (data : Bytes) :
    ∃ block, s.receive data = { s with log := s.log ++ [.block data], block } ∧
      (block = s.block ∧ (data = [] ∨ s.state ≠ .recording ∧
          (s.state = .stopping → s.stopDraining = false)) ∨
        block = some .arming ∧ s.state = .arming ∨
        block = some (.appending data s.hasWriter) ∧
          (s.state = .recording ∨ s.state = .stopping ∧ s.stopDraining = true)) := by
  unfold receive
  by_cases hdata : data = []
  · exact ⟨s.block, by rw [if_pos hdata], .inl ⟨rfl, .inl hdata⟩⟩
  · cases hstate : s.state with
    | arming => exact ⟨some .arming, by simp only [if_neg hdata], .inr (.inl ⟨rfl, rfl⟩)⟩
    | recording =>
      exact ⟨some (.appending data s.hasWriter), by simp only [if_neg hdata],
        .inr (.inr ⟨rfl, .inl rfl⟩)⟩
    | stopping =>
      by_cases hdrain : s.stopDraining = true
      · exact ⟨some (.appending data s.hasWriter), by simp only [if_neg hdata, if_pos hdrain],
          .inr (.inr ⟨rfl, .inr ⟨rfl, hdrain⟩⟩)⟩
      · exact ⟨s.block, by simp only [if_neg hdata, if_neg hdrain],
          .inl ⟨rfl, .inr ⟨by simp, fun _ => Bool.eq_false_iff.2 hdrain⟩⟩⟩
    | paused | suspending | suspended | resuming | terminal =>
      exact ⟨s.block, by simp only [if_neg hdata], .inl ⟨rfl, .inr ⟨by simp, by simp⟩⟩⟩

/-- The `append` of the writer leaves its queue to the next step. -/
theorem append_queue (settings : Settings) (w : BoundedPipeWriter) (data : Bytes) :
    (w.append settings data).1.thread = w.thread ∧ (w.append settings data).1.queue = w.queue := by
  unfold BoundedPipeWriter.append
  repeat' split
  all_goals exact ⟨rfl, rfl⟩

theorem append_same (settings : Settings) (s : SittingCapture) (data : Bytes) (hasWriter : Bool) :
    ∃ writer delivery, s.append settings data hasWriter = { s with writer, block := some delivery } ∧
      (writer.thread = s.writer.thread ∧ writer.queue = s.writer.queue) ∧
      (delivery = .enqueuing data ∨ ∃ fault, delivery = .recording (.storing fault)) := by
  have hqueue := append_queue settings s.writer data
  unfold append
  split
  · exact ⟨s.writer, _, rfl, ⟨rfl, rfl⟩, .inr ⟨_, rfl⟩⟩
  · rcases hres : s.writer.append settings data with ⟨w, accepted⟩
    rw [hres] at hqueue
    cases accepted with
    | true => exact ⟨w, _, rfl, hqueue, .inl rfl⟩
    | false => exact ⟨w, _, rfl, hqueue, .inr ⟨_, rfl⟩⟩

theorem deliver_same (settings : Settings) (s : SittingCapture) :
    ∃ storedFault jobs writer block,
      s.deliver settings = { s with storedFault, jobs, writer, block } ∧
      (s.block = none → block = none) ∧ s.jobs <+: jobs ∧
      writer.thread = s.writer.thread ∧ s.writer.queue <+: writer.queue := by
  unfold deliver
  cases hblock : s.block with
  | none =>
    exact ⟨s.storedFault, s.jobs, s.writer, none, by simp only [← hblock], id, List.prefix_rfl, rfl,
      List.prefix_rfl⟩
  | some delivery =>
    cases delivery with
    | arming =>
      exact ⟨s.storedFault, _, s.writer, none, rfl, fun _ => rfl, List.prefix_append _ _, rfl,
        List.prefix_rfl⟩
    | appending data hasWriter =>
      obtain ⟨writer, delivery, happend, ⟨hthread, hqueue⟩, -⟩ := append_same settings s data hasWriter
      exact ⟨s.storedFault, s.jobs, writer, some delivery, happend, by simp, List.prefix_rfl, hthread,
        hqueue ▸ List.prefix_rfl⟩
    | enqueuing =>
      exact ⟨s.storedFault, s.jobs, _, none, rfl, fun _ => rfl, List.prefix_rfl, rfl,
        List.prefix_append _ _⟩
    | recording recording =>
      obtain ⟨storedFault, jobs, hrecord, -, hjobs⟩ := record_same s recording
      exact ⟨storedFault, jobs, s.writer, (s.record recording).2.map .recording,
        by simp only [hrecord], by simp, hjobs, rfl, List.prefix_rfl⟩

theorem writeWholeBlock_same (settings : Settings) (s : SittingCapture) (data : Bytes)
    (written deadline : Nat) (outcome : WriteOutcome) :
    ∃ thread pipe room, s.writeWholeBlock settings data written deadline outcome =
      { s.onThread thread with pipe, room } := by
  have hthread : ∀ next, ∃ thread pipe room, s.onThread next = { s.onThread thread with pipe, room } :=
    fun next => ⟨next, s.pipe, s.room, rfl⟩
  have hsame : ∃ thread pipe room, s = { s.onThread thread with pipe, room } :=
    ⟨s.writer.thread, s.pipe, s.room, rfl⟩
  unfold writeWholeBlock
  cases outcome with
  | wrote =>
    dsimp only
    split
    · exact ⟨_, _, _, rfl⟩
    · exact hsame
  | interrupted => exact hsame
  | wouldBlock pollErrno =>
    dsimp only
    split
    · cases pollErrno with
      | none => exact hsame
      | some => exact hthread _
    · exact hthread _
  | failed => exact hthread _

/-- The writer goes on in `record`. -/
theorem write_of_reporting (settings : Settings) {s : SittingCapture} {recording : Recording}
    (hthread : s.writer.thread = .reporting recording) (outcome : WriteOutcome) :
    s.write settings outcome =
      (s.record recording).1.onThread (((s.record recording).2.map Writing.reporting).getD .idle) := by
  simp only [write, hthread]
  rcases s.record recording with ⟨t, next⟩
  cases next <;> rfl

theorem write_of_not_reporting (settings : Settings) (s : SittingCapture)
    (hthread : ∀ recording, s.writer.thread ≠ .reporting recording) (outcome : WriteOutcome) :
    ∃ writer pipe room, s.write settings outcome = { s with writer, pipe, room } := by
  unfold write
  cases h : s.writer.thread with
  | idle =>
    cases s.writer.queue with
    | nil => exact ⟨s.writer, s.pipe, s.room, rfl⟩
    | cons => exact ⟨_, s.pipe, s.room, rfl⟩
  | writing data written deadline =>
    obtain ⟨thread, pipe, room, h⟩ := writeWholeBlock_same settings s data written deadline outcome
    exact ⟨_, pipe, room, h⟩
  | settling => exact ⟨_, s.pipe, s.room, rfl⟩
  | reporting recording => exact absurd h (hthread recording)

theorem write_same (settings : Settings) (s : SittingCapture) (outcome : WriteOutcome) :
    ∃ storedFault jobs writer pipe room,
      s.write settings outcome = { s with storedFault, jobs, writer, pipe, room } ∧
      s.jobs <+: jobs := by
  by_cases hthread : ∃ recording, s.writer.thread = .reporting recording
  · obtain ⟨recording, hthread⟩ := hthread
    obtain ⟨storedFault, jobs, hrecord, -, hjobs⟩ := record_same s recording
    rw [write_of_reporting settings hthread]
    exact ⟨storedFault, jobs, _, s.pipe, s.room, by rw [hrecord]; rfl, hjobs⟩
  · obtain ⟨writer, pipe, room, h⟩ :=
      write_of_not_reporting settings s (fun recording h => hthread ⟨recording, h⟩) outcome
    exact ⟨s.storedFault, s.jobs, writer, pipe, room, h, List.prefix_rfl⟩

theorem recordSource_same (s : SittingCapture) (fault : MeetingCaptureFault) :
    ∃ faults, s.recordSource fault = { s with faults } := by
  unfold recordSource
  split
  · exact ⟨_, rfl⟩
  · exact ⟨s.faults, rfl⟩

namespace Frame

theorem schedule (s : SittingCapture) (job : Job) : Frame s (s.schedule job) :=
  .of_eq rfl rfl rfl rfl rfl rfl rfl id id

theorem recordFault (s : SittingCapture) (index : Nat) : Frame s (s.recordFault index) := by
  obtain ⟨storedFault, jobs, faults, h, hempty, -⟩ := recordFault_same s index
  rw [h]
  exact .of_eq rfl rfl rfl rfl rfl rfl rfl id hempty

theorem recordSource (s : SittingCapture) (fault : MeetingCaptureFault) (hlive : s.live = true) :
    Frame s (s.recordSource fault) := by
  obtain ⟨faults, h⟩ := recordSource_same s fault
  rw [h]
  exact ⟨rfl, rfl, rfl, rfl, rfl, .rfl, .rfl, id, fun h => by simp [Silent, hlive] at h⟩

theorem receive (s : SittingCapture) (data : Bytes) (hlive : s.live = true) :
    Frame s (s.receive data) := by
  obtain ⟨block, h, -⟩ := receive_cases s data
  rw [h]
  exact ⟨rfl, rfl, rfl, rfl, rfl, by simp, by simp, id, fun h => by simp [Silent, hlive] at h⟩

theorem deliver (settings : Settings) (s : SittingCapture) : Frame s (s.deliver settings) := by
  obtain ⟨storedFault, jobs, writer, block, h, hnone, -⟩ := deliver_same settings s
  rw [h]
  exact .of_eq rfl rfl rfl rfl rfl rfl rfl hnone id

theorem write (settings : Settings) (s : SittingCapture) (outcome : WriteOutcome) :
    Frame s (s.write settings outcome) := by
  obtain ⟨storedFault, jobs, writer, pipe, room, h, -⟩ := write_same settings s outcome
  rw [h]
  exact .of_eq rfl rfl rfl rfl rfl rfl rfl id id

/-- Every step but one of the control queue. -/
theorem step (settings : Settings) (s : SittingCapture) {k : Step} (hk : ∀ answers, k ≠ .advance answers) :
    Frame s (step settings s k) := by
  cases k with
  | activate | stop | interrupt | abort => exact schedule s _
  | advance answers => exact absurd rfl (hk answers)
  | receive data =>
    dsimp only [SittingCapture.step]
    split
    · next h => exact receive s data h.1
    · exact .refl s
  | sourceFault fault =>
    dsimp only [SittingCapture.step]
    split
    · next h => exact recordSource s fault h
    · exact .refl s
  | silence =>
    dsimp only [SittingCapture.step]
    split
    · exact ⟨rfl, rfl, rfl, rfl, rfl, .rfl, .rfl, by simp, fun h => ⟨rfl, h.2⟩⟩
    · exact .refl s
  | deliver => exact deliver settings s
  | recordFault index => exact recordFault s index
  | write outcome => exact write settings s outcome
  | tick | drain => exact .of_eq rfl rfl rfl rfl rfl rfl rfl id id

end Frame

/-- What such a step leaves alone unless it is a step of the thread concerned. -/
structure Spares (s : SittingCapture) (k : Step) (t : SittingCapture) : Prop where
  jobs : s.jobs <+: t.jobs
  now : (∀ nanoseconds, k ≠ .tick nanoseconds) → t.now = s.now
  room : (∀ outcome, k ≠ .write outcome) → (∀ count, k ≠ .drain count) → t.room = s.room
  block : k ≠ .deliver → s.live = false ∨ s.block ≠ none → t.block = s.block
  faults : (∀ index, k ≠ .recordFault index) → s.faults <+: t.faults
  callbacks : (∀ index, k ≠ .recordFault index) → s.live = false → t.faults = s.faults
  thread : (∀ outcome, k ≠ .write outcome) → t.writer.thread = s.writer.thread
  queue : (∀ outcome, k ≠ .write outcome) → s.writer.queue <+: t.writer.queue
  stored : k ≠ .deliver → (∀ index, k ≠ .recordFault index) → (∀ outcome, k ≠ .write outcome) →
    t.storedFault = s.storedFault ∧ t.writer = s.writer

/-- A step of the microphone, of the clock, of the reader, or of a caller. -/
theorem Spares.of_outside {s t : SittingCapture} {k : Step} (hjobs : s.jobs <+: t.jobs)
    (hnow : (∀ nanoseconds, k ≠ .tick nanoseconds) → t.now = s.now)
    (hroom : (∀ count, k ≠ .drain count) → t.room = s.room)
    (hblock : s.live = false ∨ s.block ≠ none → t.block = s.block)
    (hfaults : s.faults <+: t.faults ∧ (s.live = false → t.faults = s.faults))
    (hstored : t.storedFault = s.storedFault) (hwriter : t.writer = s.writer) : Spares s k t where
  jobs := hjobs
  now := hnow
  room _ := hroom
  block _ := hblock
  faults _ := hfaults.1
  callbacks _ := hfaults.2
  thread _ := by rw [hwriter]
  queue _ := hwriter ▸ List.prefix_rfl
  stored _ _ _ := ⟨hstored, hwriter⟩

theorem step_spares (settings : Settings) (s : SittingCapture) {k : Step}
    (hk : ∀ answers, k ≠ .advance answers) : Spares s k (step settings s k) := by
  have hfaults : s.faults <+: s.faults ∧ (s.live = false → s.faults = s.faults) :=
    ⟨List.prefix_rfl, fun _ => rfl⟩
  have hsame : Spares s k s :=
    .of_outside List.prefix_rfl (fun _ => rfl) (fun _ => rfl) (fun _ => rfl) hfaults rfl rfl
  have hschedule : ∀ job, Spares s k (s.schedule job) := fun job =>
    .of_outside (List.prefix_append _ _) (fun _ => rfl) (fun _ => rfl) (fun _ => rfl) hfaults rfl rfl
  cases k with
  | activate | stop | interrupt | abort => exact hschedule _
  | advance answers => exact absurd rfl (hk answers)
  | receive data =>
    dsimp only [step]
    split
    · next hfree =>
      obtain ⟨block, heq, -⟩ := receive_cases s data
      rw [heq]
      refine .of_outside List.prefix_rfl (fun _ => rfl) (fun _ => rfl) ?_ hfaults rfl rfl
      rintro (hlive | hbusy)
      · simp [hfree.1] at hlive
      · exact absurd (by simpa using hfree.2) hbusy
    · exact hsame
  | sourceFault =>
    simp only [step, recordSource]
    split
    · next hlive =>
      split
      · exact .of_outside List.prefix_rfl (fun _ => rfl) (fun _ => rfl) (fun _ => rfl)
          ⟨List.prefix_append _ _, fun hdead => by simp [hlive] at hdead⟩ rfl rfl
      · exact hsame
    · exact hsame
  | silence =>
    dsimp only [step]
    split
    · exact .of_outside List.prefix_rfl (fun _ => rfl) (fun _ => rfl) (fun _ => rfl) hfaults rfl rfl
    · exact hsame
  | deliver =>
    obtain ⟨storedFault, jobs, writer, block, heq, -, hjobs, hthread, hqueue⟩ := deliver_same settings s
    dsimp only [step]
    rw [heq]
    exact ⟨hjobs, fun _ => rfl, fun _ _ => rfl, fun hne => absurd rfl hne, fun _ => hfaults.1,
      fun _ => hfaults.2, fun _ => hthread, fun _ => hqueue, fun hne => absurd rfl hne⟩
  | recordFault index =>
    obtain ⟨storedFault, jobs, faults, heq, -, -, hjobs⟩ := recordFault_same s index
    dsimp only [step]
    rw [heq]
    exact ⟨hjobs, fun _ => rfl, fun _ _ => rfl, fun _ _ => rfl, fun hne => absurd rfl (hne index),
      fun hne => absurd rfl (hne index), fun _ => rfl, fun _ => List.prefix_rfl,
      fun _ hne => absurd rfl (hne index)⟩
  | write outcome =>
    obtain ⟨storedFault, jobs, writer, pipe, room, heq, hjobs⟩ := write_same settings s outcome
    dsimp only [step]
    rw [heq]
    exact ⟨hjobs, fun _ => rfl, fun hne => absurd rfl (hne outcome), fun _ _ => rfl,
      fun _ => hfaults.1, fun _ => hfaults.2, fun hne => absurd rfl (hne outcome),
      fun hne => absurd rfl (hne outcome), fun _ _ hne => absurd rfl (hne outcome)⟩
  | tick nanoseconds =>
    exact .of_outside List.prefix_rfl (fun hne => absurd rfl (hne nanoseconds)) (fun _ => rfl)
      (fun _ => rfl) hfaults rfl rfl
  | drain count =>
    exact .of_outside List.prefix_rfl (fun _ => rfl) (fun hne => absurd rfl (hne count))
      (fun _ => rfl) hfaults rfl rfl

/-! ## A step of the control queue -/

/-- The control queue waits for a job, for the microphone, or for the writer, or it
goes on. -/
def CanAdvance (s : SittingCapture) : Prop :=
  match s.control with
  | .idle => s.jobs ≠ []
  | .stopping _ => s.Silent
  | .flushing _ _ => s.writer.Drained
  | _ => True

/-- A job that ends the sitting. -/
def Job.Ends : Job → Prop
  | .fail _ | .finish _ => True
  | .activate | .markReady => False

/-- The control queue is free for a job, or back from the `start` of the microphone. -/
inductive Turn (s : SittingCapture) : Option Job → List Job → Prop where
  | job (job : Job) (rest : List Job) (control : s.control = .idle) (jobs : s.jobs = job :: rest) :
      Turn s (some job) rest
  | start (control : s.control = .starting) : Turn s none s.jobs

/-- What the next section of the control queue makes of the state. -/
inductive Section (s : SittingCapture) : SittingCapture → Prop where
  | waits (hwait : ¬ s.CanAdvance) : Section s s
  | passes {job : Option Job} {jobs : List Job} (turn : s.Turn job jobs)
      (ended : ∀ last, job = some last → last.Ends → s.state = .terminal) :
      Section s { s with jobs, control := .idle }
  | activates (rest : List Job) (control : s.control = .idle) (jobs : s.jobs = .activate :: rest)
      (state : s.state = .paused) :
      Section s { s with jobs := rest, state := .arming, control := .starting, live := true }
  | readies (rest : List Job) (control : s.control = .idle) (jobs : s.jobs = .markReady :: rest)
      (state : s.state = .arming) :
      Section s { s with
        jobs := rest
        writer := .opened
        hasWriter := true
        state := .recording
        control := .announcing
        log := s.log ++ [.ready] }
  | finishes {job : Option Job} {jobs : List Job} (ending : Ending) (turn : s.Turn job jobs)
      (state : s.state ≠ .terminal) :
      Section s { s with
        jobs
        state := .stopping
        stopDraining := if s.hasWriter then true else s.stopDraining
        control := .stopping ending }
  | announces (control : s.control = .announcing) :
      Section s { s.emit .recording with control := .idle }
  | stops (ending : Ending) (control : s.control = .stopping ending) (silent : s.Silent) :
      Section s
        { s with stopDraining := false, control := .deciding ending, log := s.log ++ [.stopped] }
  | decides (ending : Ending) (control : s.control = .deciding ending) :
      Section s { s with
        control := if s.hasWriter then .draining ending (ending.failure.or s.storedFault)
          else .closing ending (ending.failure.or s.storedFault) none }
  | drains (ending : Ending) (fault : Option MeetingCaptureFault)
      (control : s.control = .draining ending fault) :
      Section s
        { s with writer := { s.writer with closing := true }, control := .flushing ending fault }
  | flushes (ending : Ending) (fault : Option MeetingCaptureFault)
      (control : s.control = .flushing ending fault) (drained : s.writer.Drained) :
      Section s { s with
        writer := { s.writer with closed := true }
        control := .settling ending fault s.writer.frames }
  | settles (ending : Ending) (fault : Option MeetingCaptureFault) (samples : Nat)
      (control : s.control = .settling ending fault samples) :
      Section s
        { s with control := .closing ending (fault.or s.writer.storedFault) (some ⟨samples⟩) }
  | closes (ending : Ending) (fault : Option MeetingCaptureFault)
      (receipt : Option SittingCaptureReceipt) (control : s.control = .closing ending fault receipt) :
      Section s
        { s with hasWriter := false, state := .terminal, control := .emitting ending fault receipt }
  | emits (ending : Ending) (fault : Option MeetingCaptureFault)
      (receipt : Option SittingCaptureReceipt) (control : s.control = .emitting ending fault receipt) :
      Section s { s.emit (terminalUpdate ending fault receipt) with control := .idle }

section

variable {s : SittingCapture} {job : Option Job} {jobs : List Job}

theorem Turn.free (h : s.Turn job jobs) : s.control = .idle ∨ s.control = .starting := by
  cases h with
  | job _ _ control => exact .inl control
  | start control => exact .inr control

theorem section_of_beginFinish (turn : s.Turn job jobs) (ending : Ending) :
    Section s ({ s with jobs, control := .idle }.beginFinish ending) := by
  unfold beginFinish
  split
  · next hstate => exact .passes turn fun _ _ _ => hstate
  · next hstate => exact .finishes ending turn hstate

theorem section_of_fail (turn : s.Turn job jobs) (fault : MeetingCaptureFault) :
    Section s ({ s with jobs, control := .idle }.fail fault) := by
  unfold fail
  split
  · next hstate => exact .passes turn fun _ _ _ => hstate
  · exact section_of_beginFinish turn _

theorem section_of_job {job : Job} {rest : List Job} (answers : Answers)
    (control : s.control = .idle) (jobs : s.jobs = job :: rest) :
    Section s ({ s with jobs := rest, control := .idle }.runJob answers job) := by
  have turn : s.Turn (some job) rest := .job job rest control jobs
  cases job with
  | activate =>
    simp only [runJob, activate]
    split
    · next hstate => exact .activates rest control jobs hstate
    · exact section_of_fail turn _
  | markReady =>
    simp only [runJob, markReady]
    split
    · exact .passes turn fun _ hsome hends => by cases hsome; exact hends.elim
    · next hstate =>
      cases answers.opened with
      | error fault => exact section_of_fail turn fault
      | ok _ => exact .readies rest control jobs (not_not.1 hstate)
  | fail fault => exact section_of_fail turn fault
  | finish ending => exact section_of_beginFinish turn ending

theorem advance_section (s : SittingCapture) (answers : Answers) : Section s (s.advance answers) := by
  unfold advance
  cases hcontrol : s.control with
  | idle =>
    cases hjobs : s.jobs with
    | nil => exact .waits (by simp [CanAdvance, hcontrol, hjobs])
    | cons => exact section_of_job answers hcontrol hjobs
  | starting =>
    cases answers.started with
    | error fault => exact section_of_fail (.start hcontrol) fault
    | ok _ => exact .passes (.start hcontrol) fun _ hsome => by cases hsome
  | announcing => exact .announces hcontrol
  | stopping ending =>
    dsimp only
    split
    · next hsilent => exact .stops ending hcontrol hsilent
    · next hbusy => exact .waits (by simpa [CanAdvance, hcontrol] using hbusy)
  | deciding ending => exact .decides ending hcontrol
  | draining ending fault => exact .drains ending fault hcontrol
  | flushing ending fault =>
    dsimp only
    split
    · next hdrained => exact .flushes ending fault hcontrol hdrained
    · next hbusy => exact .waits (by simpa [CanAdvance, hcontrol] using hbusy)
  | settling ending fault samples => exact .settles ending fault samples hcontrol
  | closing ending fault receipt => exact .closes ending fault receipt hcontrol
  | emitting ending fault receipt => exact .emits ending fault receipt hcontrol

end

/-! ## The order of the updates -/

/-- An update that ends a sitting. -/
def IsTerminal : SittingCaptureUpdate → Prop
  | .finalized _ | .failed _ | .interrupted => True
  | .recording => False

theorem terminalUpdate_isTerminal (ending : Ending) (terminalFault : Option MeetingCaptureFault)
    (receipt : Option SittingCaptureReceipt) :
    IsTerminal (terminalUpdate ending terminalFault receipt) := by
  unfold terminalUpdate
  repeat' split
  all_goals trivial

/-- What was emitted before the end of `finish`, once `markReady` is over. -/
def announced (s : SittingCapture) : List SittingCaptureUpdate :=
  if Note.ready ∈ s.log then [.recording] else []

/-- `finish`, once the microphone has stopped and before its last section. -/
def Control.Ends : Control → Prop
  | .deciding _ | .draining _ _ | .flushing _ _ | .settling _ _ _ | .closing _ _ _ => True
  | _ => False

/-- The phases of a sitting. -/
inductive Phase (s : SittingCapture) : Prop where
  | paused (state : s.state = .paused) (control : s.control = .idle) (live : s.live = false)
      (hasWriter : s.hasWriter = false) (stopDraining : s.stopDraining = false)
      (ready : Note.ready ∉ s.log) (stopped : Note.stopped ∉ s.log) (updates : s.updates = [])
  | arming (state : s.state = .arming) (control : s.control = .idle ∨ s.control = .starting)
      (hasWriter : s.hasWriter = false) (stopDraining : s.stopDraining = false)
      (ready : Note.ready ∉ s.log) (stopped : Note.stopped ∉ s.log) (updates : s.updates = [])
  | recording (state : s.state = .recording) (hasWriter : s.hasWriter = true)
      (stopDraining : s.stopDraining = false) (ready : Note.ready ∈ s.log)
      (stopped : Note.stopped ∉ s.log)
      (updates : s.control = .announcing ∧ s.updates = [] ∨
        s.control = .idle ∧ s.updates = [.recording])
  | stopping (ending : Ending) (state : s.state = .stopping) (control : s.control = .stopping ending)
      (hasWriter : s.hasWriter = true ↔ Note.ready ∈ s.log) (stopDraining : s.stopDraining = s.hasWriter)
      (stopped : Note.stopped ∉ s.log) (updates : s.updates = s.announced)
  | ending (state : s.state = .stopping) (control : s.control.Ends) (silent : s.Silent)
      (hasWriter : s.hasWriter = true ↔ Note.ready ∈ s.log) (stopDraining : s.stopDraining = false)
      (stopped : Note.stopped ∈ s.log) (updates : s.updates = s.announced)
  | emitting (ending : Ending) (terminalFault : Option MeetingCaptureFault)
      (receipt : Option SittingCaptureReceipt) (state : s.state = .terminal)
      (control : s.control = .emitting ending terminalFault receipt) (silent : s.Silent)
      (stopDraining : s.stopDraining = false) (stopped : Note.stopped ∈ s.log)
      (updates : s.updates = s.announced)
  | ended (last : SittingCaptureUpdate) (terminal : IsTerminal last) (state : s.state = .terminal)
      (control : s.control = .idle) (silent : s.Silent) (stopDraining : s.stopDraining = false)
      (stopped : Note.stopped ∈ s.log) (updates : s.updates = s.announced ++ [last])

namespace Phase

variable {s t : SittingCapture}

theorem initial (room now : Nat) : Phase (initial room now) :=
  .paused rfl rfl rfl rfl rfl List.not_mem_nil List.not_mem_nil rfl

theorem frame (h : Phase s) (hframe : Frame s t) : Phase t := by
  obtain ⟨hstate, hcontrol, hhas, hdrain, hupdates, hready, hstopped, hlive, hsilent⟩ := hframe
  have hannounced : t.announced = s.announced := by simp only [announced, hready]
  cases h with
  | paused state control live hasWriter stopDraining ready stopped updates =>
    exact .paused (hstate.trans state) (hcontrol.trans control)
      (Bool.eq_false_iff.2 fun h => by simp [live] at hlive; simp [hlive] at h)
      (hhas.trans hasWriter) (hdrain.trans stopDraining) (mt hready.1 ready) (mt hstopped.1 stopped)
      (hupdates.trans updates)
  | arming state control hasWriter stopDraining ready stopped updates =>
    exact .arming (hstate.trans state) (by rw [hcontrol]; exact control)
      (hhas.trans hasWriter) (hdrain.trans stopDraining) (mt hready.1 ready) (mt hstopped.1 stopped)
      (hupdates.trans updates)
  | recording state hasWriter stopDraining ready stopped updates =>
    exact .recording (hstate.trans state) (hhas.trans hasWriter) (hdrain.trans stopDraining)
      (hready.2 ready) (mt hstopped.1 stopped) (by rw [hcontrol, hupdates]; exact updates)
  | stopping ending state control hasWriter stopDraining stopped updates =>
    exact .stopping ending (hstate.trans state) (hcontrol.trans control)
      (by rw [hhas, hready]; exact hasWriter) (by rw [hdrain, hhas]; exact stopDraining)
      (mt hstopped.1 stopped) (by rw [hupdates, hannounced]; exact updates)
  | ending state control silent hasWriter stopDraining stopped updates =>
    exact .ending (hstate.trans state) (by rw [hcontrol]; exact control) (hsilent silent)
      (by rw [hhas, hready]; exact hasWriter) (hdrain.trans stopDraining) (hstopped.2 stopped)
      (by rw [hupdates, hannounced]; exact updates)
  | emitting ending terminalFault receipt state control silent stopDraining stopped updates =>
    exact .emitting ending terminalFault receipt (hstate.trans state) (hcontrol.trans control)
      (hsilent silent) (hdrain.trans stopDraining) (hstopped.2 stopped)
      (by rw [hupdates, hannounced]; exact updates)
  | ended last terminal state control silent stopDraining stopped updates =>
    exact .ended last terminal (hstate.trans state) (hcontrol.trans control) (hsilent silent)
      (hdrain.trans stopDraining) (hstopped.2 stopped)
      (by rw [hupdates, hannounced]; exact updates)

/-- The sections of `finish` after the microphone has stopped. -/
theorem of_ends (h : Phase s) (hends : s.control.Ends) :
    s.state = .stopping ∧ s.Silent ∧ (s.hasWriter = true ↔ Note.ready ∈ s.log) ∧
      s.stopDraining = false ∧ Note.stopped ∈ s.log ∧ s.updates = s.announced := by
  cases h with
  | ending state _ silent hasWriter stopDraining stopped updates =>
    exact ⟨state, silent, hasWriter, stopDraining, stopped, updates⟩
  | arming _ control => rcases control with control | control <;> simp [control, Control.Ends] at hends
  | recording _ _ _ _ _ updates =>
    rcases updates with ⟨control, -⟩ | ⟨control, -⟩ <;> simp [control, Control.Ends] at hends
  | paused _ control | stopping _ _ control | emitting _ _ _ _ control | ended _ _ _ control =>
    simp [control, Control.Ends] at hends

/-- One of them leaves `finish` in the next. -/
theorem goesOn (h : Phase s) (hends : s.control.Ends) (hstate : t.state = s.state)
    (hnext : t.control.Ends) (hlive : t.live = s.live) (hblock : t.block = s.block)
    (hfaults : t.faults = s.faults) (hhas : t.hasWriter = s.hasWriter)
    (hdrain : t.stopDraining = s.stopDraining) (hlog : t.log = s.log)
    (hupdates : t.updates = s.updates) : Phase t := by
  obtain ⟨state, silent, hasWriter, stopDraining, stopped, updates⟩ := h.of_ends hends
  refine .ending (hstate.trans state) hnext ?_ (by rw [hhas, hlog]; exact hasWriter)
    (hdrain.trans stopDraining) (hlog ▸ stopped) (by rw [hupdates, updates, announced, announced, hlog])
  simp only [Silent, hlive, hblock, hfaults]
  exact silent

theorem advance (h : Phase s) (hsection : Section s t) : Phase t := by
  cases hsection with
  | waits => exact h
  | passes turn =>
    have hfree := turn.free
    cases h with
    | paused state _ live hasWriter stopDraining ready stopped updates =>
      exact .paused state rfl live hasWriter stopDraining ready stopped updates
    | arming state _ hasWriter stopDraining ready stopped updates =>
      exact .arming state (.inl rfl) hasWriter stopDraining ready stopped updates
    | recording state hasWriter stopDraining ready stopped updates =>
      rcases updates with ⟨control, -⟩ | ⟨-, updates⟩
      · simp [control] at hfree
      · exact .recording state hasWriter stopDraining ready stopped (.inr ⟨rfl, updates⟩)
    | ended last terminal state _ silent stopDraining stopped updates =>
      exact .ended last terminal state rfl silent stopDraining stopped updates
    | stopping _ _ control | emitting _ _ _ _ control => simp [control] at hfree
    | ending _ control => rcases hfree with hfree | hfree <;> simp [hfree, Control.Ends] at control
  | activates _ _ _ hstate =>
    cases h with
    | paused _ _ _ hasWriter stopDraining ready stopped updates =>
      exact .arming rfl (.inr rfl) hasWriter stopDraining ready stopped updates
    | arming state | recording state | stopping _ state | ending state | emitting _ _ _ state
    | ended _ _ state => simp [hstate] at state
  | readies _ _ _ hstate =>
    cases h with
    | arming _ _ _ stopDraining _ stopped updates =>
      exact .recording rfl rfl stopDraining (by simp) (by simpa using stopped) (.inl ⟨rfl, updates⟩)
    | paused state | recording state | stopping _ state | ending state | emitting _ _ _ state
    | ended _ _ state => simp [hstate] at state
  | finishes ending turn hstate =>
    have hfree := turn.free
    cases h with
    | paused _ _ _ hasWriter stopDraining ready stopped updates
    | arming _ _ hasWriter stopDraining ready stopped updates =>
      exact .stopping ending rfl rfl (by simp [hasWriter, ready]) (by simp [hasWriter, stopDraining])
        stopped (by simp [announced, ready, updates])
    | recording _ hasWriter stopDraining ready stopped updates =>
      rcases updates with ⟨control, -⟩ | ⟨-, updates⟩
      · simp [control] at hfree
      · exact .stopping ending rfl rfl (by simp [hasWriter, ready]) (by simp [hasWriter])
          stopped (by simp [announced, ready, updates])
    | stopping _ _ control => simp [control] at hfree
    | ending _ control => rcases hfree with hfree | hfree <;> simp [hfree, Control.Ends] at control
    | emitting _ _ _ state | ended _ _ state => exact absurd state hstate
  | announces hcontrol =>
    cases h with
    | recording state hasWriter stopDraining ready stopped updates =>
      rcases updates with ⟨-, updates⟩ | ⟨control, -⟩
      · exact .recording state hasWriter stopDraining ready stopped
          (.inr ⟨rfl, by simp [emit, updates]⟩)
      · simp [hcontrol] at control
    | paused _ control | arming _ control | stopping _ _ control | emitting _ _ _ _ control
    | ended _ _ _ control => simp [hcontrol] at control
    | ending _ control => simp [hcontrol, Control.Ends] at control
  | stops ending hcontrol hsilent =>
    cases h with
    | stopping _ state _ hasWriter _ _ updates =>
      exact .ending state trivial hsilent (by simp [hasWriter]) rfl (by simp)
        (by simp [announced, updates])
    | paused _ control | arming _ control | recording _ _ _ _ _ control | emitting _ _ _ _ control
    | ended _ _ _ control => simp [hcontrol] at control
    | ending _ control => simp [hcontrol, Control.Ends] at control
  | decides ending hcontrol =>
    refine h.goesOn (by rw [hcontrol]; trivial) rfl ?_ rfl rfl rfl rfl rfl rfl rfl
    dsimp only
    split <;> trivial
  | drains _ _ hcontrol | flushes _ _ hcontrol | settles _ _ _ hcontrol =>
    exact h.goesOn (by rw [hcontrol]; trivial) rfl trivial rfl rfl rfl rfl rfl rfl rfl
  | closes ending fault receipt hcontrol =>
    obtain ⟨-, silent, -, stopDraining, stopped, updates⟩ := h.of_ends (by rw [hcontrol]; trivial)
    exact .emitting ending fault receipt rfl rfl silent stopDraining stopped updates
  | emits ending fault receipt hcontrol =>
    cases h with
    | emitting _ _ _ state _ silent stopDraining stopped updates =>
      exact .ended _ (terminalUpdate_isTerminal ending fault receipt) state rfl silent stopDraining
        stopped (congrArg (· ++ [_]) updates)
    | paused _ control | arming _ control | recording _ _ _ _ _ control | stopping _ _ control
    | ended _ _ _ control => simp [hcontrol] at control
    | ending _ control => simp [hcontrol, Control.Ends] at control

/-- While the microphone may call back, its `stop` has not returned. -/
theorem not_stopped_of_live (h : Phase s) (hlive : s.live = true) : Note.stopped ∉ s.log := by
  have hsilent : ¬ s.Silent := fun h => by simp [Silent, hlive] at h
  cases h with
  | paused _ _ _ _ _ _ stopped | arming _ _ _ _ _ stopped | recording _ _ _ _ stopped
  | stopping _ _ _ _ _ stopped => exact stopped
  | ending _ _ silent | emitting _ _ _ _ _ silent | ended _ _ _ _ silent =>
    exact absurd silent hsilent

theorem silent_of_terminal (h : Phase s) (hterminal : s.state = .terminal) : s.Silent := by
  cases h with
  | paused state | arming state | recording state | stopping _ state | ending state =>
    simp [hterminal] at state
  | emitting _ _ _ _ _ silent | ended _ _ _ _ silent => exact silent

theorem terminal_of_emitting (h : Phase s) {ending : Ending}
    {terminalFault : Option MeetingCaptureFault} {receipt : Option SittingCaptureReceipt}
    (hcontrol : s.control = .emitting ending terminalFault receipt) : s.state = .terminal := by
  cases h with
  | paused _ control | arming _ control | recording _ _ _ _ _ control | stopping _ _ control =>
    simp [hcontrol] at control
  | ending _ control => simp [hcontrol, Control.Ends] at control
  | emitting _ _ _ state | ended _ _ state => exact state

theorem block_of_terminal (h : Phase s) (hterminal : s.state = .terminal) : s.block = none := by
  simpa using (h.silent_of_terminal hterminal).2.1

theorem not_ready_of_arming (h : Phase s) (harming : s.state = .arming) : Note.ready ∉ s.log := by
  cases h with
  | arming _ _ _ _ ready => exact ready
  | paused state | recording state | stopping _ state | ending state | emitting _ _ _ state
  | ended _ _ state => simp [harming] at state

/-- The snapshots that stream a block are those after readiness. -/
theorem ready_iff_of_live (h : Phase s) (hlive : s.live = true) :
    Note.ready ∈ s.log ↔ s.state = .recording ∨ s.state = .stopping ∧ s.stopDraining = true := by
  have hsilent : ¬ s.Silent := fun h => by simp [Silent, hlive] at h
  cases h with
  | paused state _ _ _ _ ready | arming state _ _ _ ready | recording state _ _ ready =>
    simp [state, ready]
  | stopping _ state _ hasWriter stopDraining => simp [state, stopDraining, hasWriter]
  | ending _ _ silent | emitting _ _ _ _ _ silent | ended _ _ _ _ silent =>
    exact absurd silent hsilent

theorem step (settings : Settings) (h : Phase s) (k : Step) : Phase (step settings s k) := by
  by_cases hk : ∃ answers, k = .advance answers
  · obtain ⟨answers, rfl⟩ := hk
    exact h.advance (advance_section s answers)
  · exact h.frame (Frame.step settings s fun answers heq => hk ⟨answers, heq⟩)

/-- What was emitted: nothing or `recording` while the sitting is under way, and one
terminal update after it when it is over. -/
theorem updates_cases (h : Phase s) :
    (s.updates = [] ∨ s.updates = [.recording]) ∨
      ∃ last, IsTerminal last ∧ (s.updates = [last] ∨ s.updates = [.recording, last]) := by
  have hannounced : s.announced = [] ∨ s.announced = [.recording] := by
    unfold announced
    split
    · exact .inr rfl
    · exact .inl rfl
  cases h with
  | paused _ _ _ _ _ _ _ updates | arming _ _ _ _ _ _ updates => exact .inl (.inl updates)
  | recording _ _ _ _ _ updates => exact .inl (updates.imp And.right And.right)
  | stopping _ _ _ _ _ _ updates | ending _ _ _ _ _ _ updates | emitting _ _ _ _ _ _ _ _ updates =>
    exact .inl (by rw [updates]; exact hannounced)
  | ended last terminal _ _ _ _ _ updates =>
    refine .inr ⟨last, terminal, ?_⟩
    rw [updates]
    exact hannounced.imp (congrArg (· ++ [last])) (congrArg (· ++ [last]))

end Phase

end YawnApp.Capture.SittingCapture
