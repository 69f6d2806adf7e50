import YawnApp.Capture.SittingVerdict
import YawnApp.Foundation.FairRuns

set_option autoImplicit false

/-!
# The end of a sitting

A sitting whose end is due ends, whatever the reader of the pipe does: the writer
gives up a write at its deadline, and after a fault it skips what is queued.  A
reader that takes no more than the pipe holds makes the end due.

The runs are those in which no thread is starved, a write is not interrupted again
and again, the `stop` of the microphone ends its callbacks, and time passes.
-/

namespace YawnApp.Capture.SittingCapture

open YawnApp.Foundation

/-! ## Fair runs -/

inductive Thread where
  | control
  | writer
  /-- the callback of a block -/
  | block
  /-- the oldest callback of a fault -/
  | fault
  /-- the microphone in its `stop` -/
  | microphone
  | clock
deriving DecidableEq

/-- The outcomes by which a write goes on. -/
def Possible (s : SittingCapture) (outcome : WriteOutcome) : Prop :=
  match s.writer.thread, outcome with
  | .writing data written _, .wrote count =>
    0 < count ∧ written + count ≤ data.length ∧ count ≤ s.room
  | .writing .., .interrupted => False
  | _, _ => True

def threads (settings : Settings) : Threads SittingCapture Step Thread where
  next := step settings
  ready
    | .control, s => s.CanAdvance
    | .writer, s => ¬ s.writer.Drained
    | .block, s => s.block ≠ none
    | .fault, s => s.faults ≠ []
    | .microphone, s => s.live = true ∧ ∃ ending, s.control = .stopping ending
    | .clock, _ => True
  moves
    | .control, _, k => ∃ answers, k = .advance answers
    | .writer, s, k => ∃ outcome, k = .write outcome ∧ s.Possible outcome
    | .block, _, k => k = .deliver
    | .fault, _, k => k = .recordFault 0
    | .microphone, _, k => k = .silence
    | .clock, _, k => ∃ nanoseconds, 0 < nanoseconds ∧ k = .tick nanoseconds

/-! ## When the end is due -/

/-- `finish` is under way or over. -/
def Finishing (s : SittingCapture) : Prop := s.state = .stopping ∨ s.state = .terminal

/-- A job that ends the sitting is queued, or a thread is about to queue one. -/
inductive Due (s : SittingCapture) : Prop where
  | finishing (h : s.Finishing)
  | job (job : Job) (mem : job ∈ s.jobs) (ends : job.Ends)
  | block (recording : Recording) (h : s.block = some (.recording recording))
  | faults (h : s.faults ≠ [])
  | writer (recording : Recording) (h : s.writer.thread = .reporting recording)

/-- A fault is stored in one of the two objects. -/
def Faulted (s : SittingCapture) : Prop :=
  s.storedFault.isSome = true ∨ s.writer.storedFault.isSome = true

namespace Due

variable {settings : Settings} {s t : SittingCapture}

/-- `record` stores a fault for a `finish` that is under way, or it goes on to
schedule one. -/
theorem record (s : SittingCapture) (recording : Recording) :
    s.Finishing ∨ (∃ next, (s.record recording).2 = some next) ∨
      ∃ job ∈ (s.record recording).1.jobs, job.Ends := by
  rcases record_cases s recording with ⟨-, hstate⟩ | ⟨fault, -, -, heq⟩ | ⟨fault, -, heq⟩
  · exact .inl (.inr hstate)
  · by_cases hstate : s.state = .stopping
    · exact .inl (.inl hstate)
    · exact .inr (.inl ⟨.scheduling fault, by rw [heq, if_neg hstate]⟩)
  · exact .inr (.inr ⟨.fail fault, by rw [heq]; simp [schedule], trivial⟩)

/-- A step that takes no job keeps the end due if its own thread does. -/
theorem mono (h : Due s) (hstate : t.state = s.state) (hjobs : ∀ job ∈ s.jobs, job ∈ t.jobs)
    (hblock : ∀ recording, s.block = some (.recording recording) → Due t)
    (hfaults : s.faults ≠ [] → Due t)
    (hthread : ∀ recording, s.writer.thread = .reporting recording → Due t) : Due t := by
  cases h with
  | finishing h => exact .finishing (by rw [Finishing, hstate]; exact h)
  | job job mem ends => exact .job job (hjobs job mem) ends
  | block recording h => exact hblock recording h
  | faults h => exact hfaults h
  | writer recording h => exact hthread recording h

end Due

/-! ## What the control queue leaves alone -/

/-- The callbacks, the pipe and the queue of the writer are as they were. -/
structure Untouched (s t : SittingCapture) : Prop where
  block : t.block = s.block
  faults : t.faults = s.faults
  room : t.room = s.room
  now : t.now = s.now
  stored : t.storedFault = s.storedFault
  thread : t.writer.thread = s.writer.thread
  queue : t.writer.queue = s.writer.queue
  writerFault : t.writer.storedFault.isSome = true → s.writer.storedFault.isSome = true

variable {t : SittingCapture}

theorem Untouched.advance {settings : Settings} {s : SittingCapture} (hphase : Phase s)
    (hstreams : Streams settings s) (hsection : Section s t) : Untouched s t := by
  cases hsection with
  | readies _ _ _ state =>
    -- the writer that is replaced has never had anything to do
    obtain ⟨⟨hqueue, hthread⟩, -, -⟩ := hstreams.unopened (hphase.not_ready_of_arming state)
    exact ⟨rfl, rfl, rfl, rfl, rfl, hthread.symm, hqueue.symm, fun hsome => by cases hsome⟩
  | waits | passes | activates | finishes | announces | stops | decides | drains | flushes | settles
  | closes | emits => exact ⟨rfl, rfl, rfl, rfl, rfl, rfl, rfl, id⟩

theorem Finishing.advance {s : SittingCapture} (h : s.Finishing) (hsection : Section s t) :
    t.Finishing := by
  cases hsection with
  | activates _ _ _ state | readies _ _ _ state => simp [Finishing, state] at h
  | finishes => exact .inl rfl
  | closes => exact .inr rfl
  | waits | passes | announces | stops | decides | drains | flushes | settles | emits => exact h

/-- A queued job that ends the sitting stays queued until it runs. -/
theorem mem_jobs_advance {s : SittingCapture} (hsection : Section s t) {job : Job}
    (hmem : job ∈ s.jobs) (hends : job.Ends) : t.Finishing ∨ job ∈ t.jobs := by
  cases hsection with
  | passes turn ended =>
    cases turn with
    | job first rest _ jobs =>
      rw [jobs] at hmem
      rcases List.mem_cons.1 hmem with rfl | hrest
      · exact .inl (.inr (ended _ rfl hends))
      · exact .inr hrest
    | start => exact .inr hmem
  | activates rest _ jobs | readies rest _ jobs =>
    rw [jobs] at hmem
    rcases List.mem_cons.1 hmem with rfl | hrest
    · exact hends.elim
    · exact .inr hrest
  | finishes => exact .inl (.inl rfl)
  | waits | announces | stops | decides | drains | flushes | settles | closes | emits =>
    exact .inr hmem

namespace Due

variable {settings : Settings} {s : SittingCapture}

theorem advance (h : Due s) (hinv : Invariant settings s) (answers : Answers) :
    Due (s.advance answers) := by
  have hsection := advance_section s answers
  have hsame := Untouched.advance hinv.phase hinv.streams hsection
  cases h with
  | finishing h => exact .finishing (h.advance hsection)
  | job job mem ends =>
    rcases mem_jobs_advance hsection mem ends with hfinishing | hmem
    · exact .finishing hfinishing
    · exact .job job hmem ends
  | block recording h => exact .block recording (hsame.block.trans h)
  | faults h => exact .faults (by rw [hsame.faults]; exact h)
  | writer recording h => exact .writer recording (hsame.thread.trans h)

/-- A thread in `record` goes on. -/
theorem recorded {recording : Recording} {t : SittingCapture}
    (hstate : t.state = s.state)
    (hjobs : ∀ job ∈ (s.record recording).1.jobs, job ∈ t.jobs)
    (hnext : ∀ next, (s.record recording).2 = some next → Due t) : Due t := by
  rcases record s recording with hfinishing | ⟨next, heq⟩ | ⟨job, hmem, hends⟩
  · exact .finishing (by rw [Finishing, hstate]; exact hfinishing)
  · exact hnext next heq
  · exact .job job (hjobs job hmem) hends

theorem deliver (h : Due s) (settings : Settings) : Due (s.deliver settings) := by
  unfold SittingCapture.deliver
  cases hblock : s.block with
  | none => exact h
  | some delivery =>
    cases delivery with
    | arming =>
      dsimp only
      exact h.mono rfl (fun job hmem => List.mem_append_left _ hmem) (by simp [hblock])
        (fun h => .faults h) fun recording h => .writer recording h
    | appending data hasWriter =>
      obtain ⟨writer, delivery, heq, ⟨hthread, -⟩, -⟩ := append_same settings s data hasWriter
      simp only [heq]
      exact h.mono rfl (fun job hmem => hmem) (by simp [hblock]) (fun h => .faults h)
        fun recording h => .writer recording (hthread.trans h)
    | enqueuing =>
      dsimp only
      exact h.mono rfl (fun job hmem => hmem) (by simp [hblock]) (fun h => .faults h)
        fun recording h => .writer recording h
    | recording recording =>
      obtain ⟨storedFault, jobs, hrecord, -⟩ := record_same s recording
      refine @recorded s recording _ ?_ (fun job hmem => hmem) fun next hnext => ?_
      · simp only [hrecord]
      · exact .block next (by simp only [hnext]; rfl)

theorem recordFault (h : Due s) (index : Nat) : Due (s.recordFault index) := by
  unfold SittingCapture.recordFault
  cases hfault : s.faults[index]? with
  | none => exact h
  | some recording =>
    obtain ⟨storedFault, jobs, hrecord, -⟩ := record_same s recording
    have hcases := record s recording
    rcases hres : s.record recording with ⟨t, next⟩
    rw [hres] at hrecord hcases
    obtain rfl : t = { s with storedFault, jobs } := hrecord
    simp only [hres]
    cases next with
    | some =>
      refine .faults fun hempty => ?_
      have hnil : s.faults = [] := (List.set_eq_nil_iff _ _).1 hempty
      simp [hnil] at hfault
    | none =>
      rcases hcases with hfinishing | ⟨next, hnext⟩ | ⟨job, hmem, hends⟩
      · exact .finishing hfinishing
      · cases hnext
      · exact .job job hmem hends

theorem write (h : Due s) (settings : Settings) (outcome : WriteOutcome) :
    Due (s.write settings outcome) := by
  cases hthread : s.writer.thread with
  | reporting recording =>
    rw [write_of_reporting settings hthread]
    obtain ⟨storedFault, jobs, hrecord, -⟩ := record_same s recording
    refine @recorded s recording _ ?_ (fun job hmem => hmem) fun next hnext => ?_
    · simp only [hrecord, onThread]
    · exact .writer next (by simp only [hnext, onThread]; rfl)
  | idle | writing _ _ _ | settling _ _ _ =>
    obtain ⟨writer, pipe, room, heq⟩ := write_of_not_reporting settings s (by simp [hthread]) outcome
    rw [heq]
    exact h.mono rfl (fun job hmem => hmem) (fun recording h => .block recording h)
      (fun h => .faults h) (by simp [hthread])

/-- The end stays due. -/
theorem step (h : Due s) (hinv : Invariant settings s) (k : Step) : Due (step settings s k) := by
  by_cases hadvance : ∃ answers, k = .advance answers
  · obtain ⟨answers, rfl⟩ := hadvance
    exact h.advance hinv answers
  by_cases hdeliver : k = .deliver
  · subst hdeliver
    exact h.deliver settings
  by_cases hrecord : ∃ index, k = .recordFault index
  · obtain ⟨index, rfl⟩ := hrecord
    exact h.recordFault index
  by_cases hwrite : ∃ outcome, k = .write outcome
  · obtain ⟨outcome, rfl⟩ := hwrite
    exact h.write settings outcome
  -- no other step moves a thread that is on its way to `record`
  have hother : ∀ answers, k ≠ .advance answers := fun answers heq => hadvance ⟨answers, heq⟩
  have hspares := step_spares settings s hother
  refine h.mono (Frame.step settings s hother).state (fun job => hspares.jobs.mem) (fun recording hblock => ?_)
    (fun hfaults => .faults fun hempty => hfaults ?_) fun recording hthread => .writer recording ?_
  · exact .block recording ((hspares.block hdeliver (.inr (by simp [hblock]))).trans hblock)
  · exact List.prefix_nil.1 (hempty ▸ hspares.faults fun index heq => hrecord ⟨index, heq⟩)
  · exact (hspares.thread fun outcome heq => hwrite ⟨outcome, heq⟩).trans hthread

/-! ### A stored fault makes the end due -/

/-- A block that the writer refuses for good stores its fault on the way to `record`. -/
theorem of_append (settings : Settings) (s : SittingCapture) (data : Bytes) (hasWriter : Bool)
    (hclear : ¬ s.Faulted) (hfaulted : (s.append settings data hasWriter).Faulted) :
    Due (s.append settings data hasWriter) := by
  revert hfaulted
  unfold SittingCapture.append
  split
  · exact fun _ => .block _ rfl
  · rcases Streams.append_cases settings s.writer data with ⟨heq, -, -⟩ | ⟨storedFault, heq, -⟩ <;>
      rw [heq]
    · exact fun hfaulted => absurd hfaulted hclear
    · exact fun _ => .block _ rfl

theorem of_faulted_step (hdue : s.Faulted → Due s) (hinv : Invariant settings s) (k : Step)
    (hfaulted : (SittingCapture.step settings s k).Faulted) : Due (SittingCapture.step settings s k) := by
  by_cases h : Due s
  · exact h.step hinv k
  have hclear : ¬ s.Faulted := mt hdue h
  by_cases hadvance : ∃ answers, k = .advance answers
  · obtain ⟨answers, rfl⟩ := hadvance
    have hsame := Untouched.advance hinv.phase hinv.streams (advance_section s answers)
    refine absurd (hfaulted.imp (fun hstored => ?_) hsame.writerFault) hclear
    rw [← hsame.stored]
    exact hstored
  by_cases hdeliver : k = .deliver
  · subst hdeliver
    revert hfaulted
    simp only [SittingCapture.step, SittingCapture.deliver]
    cases hblock : s.block with
    | none => exact fun hfaulted => absurd hfaulted hclear
    | some delivery =>
      cases delivery with
      | arming => exact fun hfaulted => absurd hfaulted hclear
      | appending data hasWriter => exact of_append settings s data hasWriter hclear
      | enqueuing => exact fun hfaulted => absurd hfaulted hclear
      | recording recording => exact absurd (.block recording hblock) h
  by_cases hrecord : ∃ index, k = .recordFault index
  · obtain ⟨index, rfl⟩ := hrecord
    have hempty : s.faults = [] := by
      by_contra hfaults
      exact h (.faults hfaults)
    simp only [SittingCapture.step, SittingCapture.recordFault, hempty, List.getElem?_nil] at hfaulted
    exact absurd hfaulted hclear
  by_cases hwrite : ∃ outcome, k = .write outcome
  · obtain ⟨outcome, rfl⟩ := hwrite
    revert hfaulted
    simp only [SittingCapture.step]
    cases hthread : s.writer.thread with
    | reporting recording => exact absurd (.writer recording hthread) h
    | idle =>
      unfold SittingCapture.write
      rw [hthread]
      cases s.writer.queue <;> exact fun hfaulted => absurd hfaulted hclear
    | writing data written deadline =>
      unfold SittingCapture.write
      rw [hthread]
      obtain ⟨thread, pipe, room, heq⟩ := writeWholeBlock_same settings s data written deadline outcome
      simp only [heq]
      exact fun hfaulted => absurd hfaulted hclear
    | settling data alreadyFailed failure =>
      unfold SittingCapture.write
      rw [hthread]
      rcases Streams.settle_cases s.writer data alreadyFailed failure with ⟨fault, -, heq⟩ |
        ⟨heq, -⟩ | ⟨-, -, heq⟩ <;> simp only [heq]
      · exact fun _ => .writer _ rfl
      · exact fun hfaulted => absurd hfaulted hclear
      · exact fun hfaulted => absurd hfaulted hclear
  -- no other step stores a fault
  have hspares := step_spares settings s fun answers heq => hadvance ⟨answers, heq⟩
  obtain ⟨hstored, hwriter⟩ := hspares.stored hdeliver (fun index heq => hrecord ⟨index, heq⟩)
    fun outcome heq => hwrite ⟨outcome, heq⟩
  exact absurd (by simpa only [Faulted, hstored, hwriter] using hfaulted) hclear

end Due

end YawnApp.Capture.SittingCapture
