import Mathlib.Algebra.GroupWithZero.Nat
import YawnApp.Capture.SittingEnds

set_option autoImplicit false

/-!
# What must happen in a sitting

Each phase on the way to the terminal update has a thread that helps and a rank that
it lowers: a thread in `record` until the failure is queued, the control queue until
`finish` begins, the microphone and its callbacks until they are silent, the writer
and the clock until the queue is drained, and the control queue again.
-/

namespace YawnApp.Capture.SittingCapture

open YawnApp.Foundation

variable {settings : Settings} {recording : Recording}

/-- A terminal update was emitted. -/
def Ended (s : SittingCapture) : Prop := ∃ last, IsTerminal last ∧ last ∈ s.updates

/-! ## The control queue -/

/-- The control queue goes on by itself. -/
theorem control_progress {P : Control → Prop} {Q : SittingCapture → Prop} {rank : Control → Nat}
    (hready : ∀ s : SittingCapture, P s.control → s.CanAdvance)
    (hadvance : ∀ (s : SittingCapture) answers, P s.control → Q (s.advance answers) ∨
      (P (s.advance answers).control ∧ rank (s.advance answers).control < rank s.control)) :
    (threads settings).Progress (fun _ _ => True) (fun s => P s.control) Q
      (fun s => rank s.control) fun _ => Thread.control where
  ready s _ _ hP := hready s hP
  step s k _ hP := by
    by_cases hk : ∃ answers, k = .advance answers
    · obtain ⟨answers, rfl⟩ := hk
      exact (hadvance s answers hP).imp id fun h => ⟨h.1, .inl h.2⟩
    · have hsame := (Frame.step settings s fun answers heq => hk ⟨answers, heq⟩).control
      have hsame' : ((threads settings).next s k).control = s.control := hsame
      exact .inr ⟨by rw [hsame']; exact hP, .inr ⟨by rw [hsame'], rfl, hk⟩⟩

/-- `finish` before the writer. -/
def Control.Early : Control → Prop
  | .deciding _ | .draining _ _ => True
  | _ => False

/-- `finish` after the writer. -/
def Control.Late : Control → Prop
  | .settling _ _ _ | .closing _ _ _ | .emitting _ _ _ => True
  | _ => False

/-- The sections of the control queue to come. -/
def Control.sections : Control → Nat
  | .deciding _ => 2
  | .draining _ _ => 1
  | .settling _ _ _ => 3
  | .closing _ _ _ => 2
  | .emitting _ _ _ => 1
  | _ => 0

theorem early_progress : (threads settings).Progress (fun _ _ => True) (fun s => s.control.Early)
    (fun s => (∃ ending fault, s.control = .flushing ending fault) ∨ s.control.Late)
    (fun s => s.control.sections) fun _ => Thread.control := by
  refine control_progress (fun s hearly => ?_) fun s answers hearly => ?_
  · unfold CanAdvance
    cases hcontrol : s.control <;> simp [hcontrol, Control.Early] at hearly ⊢
  · cases hcontrol : s.control with
    | deciding =>
      simp only [advance, hcontrol]
      split
      · exact .inr ⟨trivial, Nat.one_lt_two⟩
      · exact .inl (.inr trivial)
    | draining ending terminalFault =>
      simp only [advance, hcontrol]
      exact .inl (.inl ⟨ending, terminalFault, rfl⟩)
    | _ => simp [hcontrol, Control.Early] at hearly

theorem late_progress : (threads settings).Progress (fun _ _ => True) (fun s => s.control.Late) Ended
    (fun s => s.control.sections) fun _ => Thread.control := by
  refine control_progress (fun s hlate => ?_) fun s answers hlate => ?_
  · unfold CanAdvance
    cases hcontrol : s.control <;> simp [hcontrol, Control.Late] at hlate ⊢
  · cases hcontrol : s.control with
    | settling =>
      simp only [advance, hcontrol]
      exact .inr ⟨trivial, Nat.lt_succ_self 2⟩
    | closing =>
      simp only [advance, hcontrol]
      exact .inr ⟨trivial, Nat.one_lt_two⟩
    | emitting ending terminalFault receipt =>
      simp only [advance, hcontrol]
      exact .inl ⟨_, terminalUpdate_isTerminal ending terminalFault receipt,
        List.mem_append_right _ List.mem_cons_self⟩
    | _ => simp [hcontrol, Control.Late] at hlate

/-! ## The queue of the writer -/

/-- The sections of `record` to come. -/
def Recording.sections : Recording → Nat
  | .storing _ => 2
  | .scheduling _ => 1

/-- The steps of the writer and the clock that a job may still take. -/
def Writing.load (now : Nat) : Writing → Nat
  | .idle => 0
  | .writing data written deadline => 4 + (data.length - written) + (deadline - now)
  | .settling .. => 3
  | .reporting recording => recording.sections

/-- Those that drain the queue. -/
def load (settings : Settings) (s : SittingCapture) : Nat :=
  s.writer.thread.load s.now +
    (s.writer.queue.map fun data => data.length + settings.writeStall + 5).sum

@[simp]
theorem Writing.load_idle (now : Nat) : Writing.idle.load now = 0 := rfl

theorem whileUnwritten_load (data : Bytes) (written deadline now : Nat) :
    (whileUnwritten data written deadline).load now ≤ 4 + (data.length - written) + (deadline - now) := by
  unfold whileUnwritten
  split
  · exact Nat.le_refl _
  · simp only [Writing.load]
    omega

/-- A step of the writer lowers the load, or it is a write that got nowhere. -/
theorem write_load (s : SittingCapture) (outcome : WriteOutcome) (hbusy : ¬ s.writer.Drained) :
    load settings (s.write settings outcome) < load settings s ∨
      (s.write settings outcome = s ∧ (¬ s.Possible outcome ∨
        ∃ data written deadline, s.writer.thread = .writing data written deadline ∧ s.now < deadline)) := by
  cases hthread : s.writer.thread with
  | idle =>
    cases hqueue : s.writer.queue with
    | nil => exact absurd (s.writer.drained_iff.2 ⟨hqueue, hthread⟩) hbusy
    | cons data =>
      refine .inl ?_
      simp only [write, hthread, hqueue, load, List.map_cons, List.sum_cons]
      have hload := whileUnwritten_load data 0 (s.now + settings.writeStall) s.now
      split
      · simp only [Writing.load]
        omega
      · simp only [Nat.sub_zero, Nat.add_sub_cancel_left] at hload
        rw [Writing.load_idle]
        omega
  | writing data written deadline =>
    simp only [write, hthread]
    cases outcome with
    | wrote count =>
      simp only [writeWholeBlock]
      split
      · next hcount =>
        refine .inl ?_
        have hload := whileUnwritten_load data (written + count) deadline s.now
        simp only [load, onThread, hthread, Writing.load]
        simp only [Writing.load] at hload
        omega
      · next hcount => exact .inr ⟨rfl, .inl (by simpa [Possible, hthread] using hcount)⟩
    | interrupted => exact .inr ⟨rfl, .inl (by simp [Possible, hthread])⟩
    | wouldBlock pollErrno =>
      simp only [writeWholeBlock]
      split
      · next hbefore =>
        cases pollErrno with
        | none => exact .inr ⟨rfl, .inr ⟨data, written, deadline, rfl, hbefore⟩⟩
        | some =>
          refine .inl ?_
          simp only [load, onThread, hthread, Writing.load]
          omega
      · refine .inl ?_
        simp only [load, onThread, hthread, Writing.load]
        omega
    | failed =>
      refine .inl ?_
      simp only [writeWholeBlock, load, onThread, hthread, Writing.load]
      omega
  | settling data alreadyFailed failure =>
    refine .inl ?_
    simp only [write, hthread]
    rcases Streams.settle_cases s.writer data alreadyFailed failure with ⟨fault, -, heq⟩ |
      ⟨heq, -⟩ | ⟨-, -, heq⟩ <;>
      simp only [heq, load, hthread, Writing.load, Recording.sections] <;> omega
  | reporting recording =>
    refine .inl ?_
    rw [write_of_reporting settings hthread]
    rcases record_cases s recording with ⟨heq, -⟩ | ⟨fault, rfl, -, heq⟩ | ⟨fault, rfl, heq⟩ <;>
      simp only [heq, load, onThread, hthread]
    · cases recording <;> simp [Writing.load, Recording.sections]
    · split <;> simp [Writing.load, Recording.sections]
    · simp [Writing.load, Recording.sections, schedule]

/-- The thread that helps the queue of the writer: itself, or time while a write
waits for its deadline. -/
def writerHelper (s : SittingCapture) : Thread :=
  match s.writer.thread with
  | .writing _ _ deadline => if s.now < deadline then .clock else .writer
  | .idle | .settling .. | .reporting _ => .writer

/-- The thread that helps while `finish` waits for the queue. -/
def flushHelper (s : SittingCapture) : Thread :=
  if s.writer.Drained then .control else s.writerHelper

theorem writerHelper_cases (s : SittingCapture) : s.writerHelper = .clock ∨ s.writerHelper = .writer := by
  unfold writerHelper
  cases s.writer.thread with
  | writing =>
    dsimp only
    split
    · exact .inl rfl
    · exact .inr rfl
  | _ => exact .inr rfl

/-- A step of neither the writer nor the clock is not the helper's. -/
theorem not_moves_of_other {s : SittingCapture} {k : Step} (hwrite : ∀ outcome, k ≠ .write outcome)
    (htick : ∀ nanoseconds, k ≠ .tick nanoseconds) : ¬ (threads settings).moves s.writerHelper s k := by
  rcases s.writerHelper_cases with h | h <;> rw [h]
  · rintro ⟨nanoseconds, -, heq⟩
    exact htick nanoseconds heq
  · rintro ⟨outcome, heq, -⟩
    exact hwrite outcome heq

variable {s : SittingCapture} {index : Nat} {t : SittingCapture}

/-- A write that gets nowhere is not the helper's step. -/
theorem not_moves_of_write {outcome : WriteOutcome} (h : ¬ s.Possible outcome ∨
      ∃ data written deadline, s.writer.thread = .writing data written deadline ∧ s.now < deadline) :
    ¬ (threads settings).moves s.writerHelper s (.write outcome) := by
  rcases h with himpossible | ⟨data, written, deadline, hthread, hbefore⟩
  · unfold writerHelper
    cases hthread : s.writer.thread with
    | writing =>
      dsimp only
      split
      · simp [threads]
      · simpa [threads] using himpossible
    | _ => simpa [threads] using himpossible
  · simp [writerHelper, hthread, hbefore, threads]

/-- Time brings a write to its deadline, or the clock does not help. -/
theorem tick_cases (settings : Settings) (s : SittingCapture) (nanoseconds : Nat) :
    let t := { s with now := s.now + nanoseconds }
    (0 < nanoseconds ∧ ∃ data written deadline,
      s.writer.thread = .writing data written deadline ∧ s.now < deadline) ∨
    ((∀ data written deadline, s.writer.thread = .writing data written deadline →
        deadline - t.now = deadline - s.now) ∧
      t.writerHelper = s.writerHelper ∧
      ¬ (threads settings).moves s.writerHelper s (.tick nanoseconds)) := by
  cases hthread : s.writer.thread with
  | writing data written deadline =>
    by_cases hbefore : s.now < deadline
    · by_cases hzero : nanoseconds = 0
      · subst hzero
        exact .inr ⟨fun _ _ _ _ => rfl, rfl, by simp [writerHelper, hthread, hbefore, threads]⟩
      · exact .inl ⟨Nat.pos_of_ne_zero hzero, data, written, deadline, rfl, hbefore⟩
    · have hlater : ¬ s.now + nanoseconds < deadline := by omega
      refine .inr ⟨fun _ _ other h => ?_, ?_, ?_⟩
      · obtain ⟨-, -, rfl⟩ := Writing.writing.inj h
        dsimp only
        omega
      · simp [writerHelper, hthread, hbefore, hlater]
      · simp [writerHelper, hthread, hbefore, threads]
  | idle | settling _ _ _ | reporting _ =>
    exact .inr ⟨by simp, by simp [writerHelper, hthread], by simp [writerHelper, hthread, threads]⟩

theorem writerHelper_same (hthread : t.writer.thread = s.writer.thread) (hnow : t.now = s.now) :
    t.writerHelper = s.writerHelper := by
  unfold writerHelper
  rw [hthread, hnow]

/-- `finish` waits for the queue of the writer, which drains. -/
theorem flush_progress : (threads settings).Progress (fun s _ => Phase s)
    (fun s => ∃ ending fault, s.control = .flushing ending fault)
    (fun s => s.control.Late) (load settings) flushHelper where
  ready s _ _ hP := by
    obtain ⟨ending, fault, hcontrol⟩ := hP
    unfold flushHelper
    split
    · next hdrained => simpa [threads, CanAdvance, hcontrol] using hdrained
    · next hbusy =>
      unfold writerHelper
      cases hthread : s.writer.thread with
      | writing =>
        dsimp only
        split
        · trivial
        · exact hbusy
      | _ => exact hbusy
  step s k hphase hP := by
    obtain ⟨ending, fault, hcontrol⟩ := hP
    have hsilent : s.Silent := (hphase.of_ends (by rw [hcontrol]; trivial)).2.1
    have hhelper : ∀ t : SittingCapture, t.writer = s.writer → t.writerHelper = s.writerHelper →
        t.flushHelper = s.flushHelper := fun t hwriter hsame => by
      unfold flushHelper
      rw [hwriter, hsame]
    by_cases hadvance : ∃ answers, k = .advance answers
    · obtain ⟨answers, rfl⟩ := hadvance
      simp only [threads, step, advance, hcontrol]
      split
      · exact .inl trivial
      · next hbusy =>
        refine .inr ⟨⟨ending, fault, hcontrol⟩, .inr ⟨rfl, rfl, ?_⟩⟩
        rw [flushHelper, if_neg hbusy]
        exact @not_moves_of_other settings _ _ (by simp) (by simp)
    have hother : ∀ answers, k ≠ .advance answers := fun answers heq => hadvance ⟨answers, heq⟩
    have hframe := (Frame.step settings s hother).control.trans hcontrol
    refine .inr ⟨⟨ending, fault, hframe⟩, ?_⟩
    by_cases hwrite : ∃ outcome, k = .write outcome
    · obtain ⟨outcome, rfl⟩ := hwrite
      by_cases hdrained : s.writer.Drained
      · have heq := write_of_drained settings hdrained outcome
        exact .inr ⟨congrArg _ heq, congrArg _ heq, by simp [flushHelper, hdrained, threads]⟩
      · rcases @write_load settings s outcome hdrained with hlt | ⟨heq, hnowhere⟩
        · exact .inl hlt
        · refine .inr ⟨congrArg _ heq, congrArg _ heq, ?_⟩
          rw [flushHelper, if_neg hdrained]
          exact not_moves_of_write hnowhere
    have hwriter : (step settings s k).writer = s.writer :=
      (step_of_silent settings hsilent hother fun outcome heq => hwrite ⟨outcome, heq⟩).2
    by_cases htick : ∃ nanoseconds, k = .tick nanoseconds
    · obtain ⟨nanoseconds, rfl⟩ := htick
      rcases tick_cases settings s nanoseconds with ⟨hpos, data, written, deadline, hthread, hbefore⟩ |
        ⟨htime, hsame, hmoves⟩
      · refine .inl ?_
        simp only [threads, step, load, hthread, Writing.load]
        omega
      · refine .inr ⟨?_, hhelper _ hwriter hsame, ?_⟩
        · cases hthread : s.writer.thread with
          | writing data written deadline =>
            have hleft := htime data written deadline hthread
            dsimp only at hleft
            simp only [threads, step, load, hthread, Writing.load, hleft]
          | idle | settling _ _ _ | reporting _ =>
            simp only [threads, step, load, hthread, Writing.load]
        · unfold flushHelper
          split
          · simp [threads]
          · exact hmoves
    · have hnow := (step_spares settings s hother).now fun nanoseconds heq => htick ⟨nanoseconds, heq⟩
      refine .inr ⟨?_, hhelper _ hwriter (writerHelper_same (congrArg _ hwriter) hnow), ?_⟩
      · simp only [threads, load, hwriter, hnow]
      · unfold flushHelper
        split
        · exact hadvance
        · exact not_moves_of_other (fun outcome heq => hwrite ⟨outcome, heq⟩)
            fun nanoseconds heq => htick ⟨nanoseconds, heq⟩

/-! ## The microphone -/

/-- The sections of a callback to come. -/
def Delivery.sections : Delivery → Nat
  | .arming | .enqueuing _ => 1
  | .appending _ _ => 3
  | .recording under => under.sections

/-- Those of all callbacks. -/
def callbacks (s : SittingCapture) : Nat :=
  (s.block.map Delivery.sections).getD 0 + (s.faults.map Recording.sections).sum

theorem Recording.sections_pos (recording : Recording) : 0 < recording.sections := by
  cases recording with
  | storing => exact Nat.two_pos
  | scheduling => exact Nat.one_pos

/-- `record` goes on. -/
theorem record_sections {next : Recording} (h : (s.record recording).2 = some next) :
    next.sections < recording.sections := by
  rcases record_cases s recording with ⟨heq, -⟩ | ⟨fault, rfl, -, heq⟩ | ⟨fault, rfl, heq⟩ <;>
    rw [heq] at h
  · cases h
  · dsimp only at h
    split at h
    · cases h
    · obtain rfl := Option.some.inj h
      exact Nat.one_lt_two
  · cases h

theorem sum_set_lt {recordings : List Recording} {next : Recording}
    (h : recordings[index]? = some recording) (hlt : next.sections < recording.sections) :
    ((recordings.set index next).map Recording.sections).sum <
      (recordings.map Recording.sections).sum := by
  induction recordings generalizing index with
  | nil => cases h
  | cons first rest ih =>
    cases index with
    | zero =>
      obtain rfl : first = recording := by simpa using h
      simpa using hlt
    | succ =>
      have := ih (by simpa using h)
      simpa using this

theorem sum_eraseIdx_lt {recordings : List Recording} (h : recordings[index]? = some recording) :
    ((recordings.eraseIdx index).map Recording.sections).sum <
      (recordings.map Recording.sections).sum := by
  induction recordings generalizing index with
  | nil => cases h
  | cons first rest ih =>
    cases index with
    | zero => simpa using first.sections_pos
    | succ =>
      have := ih (by simpa using h)
      simpa using this

theorem deliver_callbacks {delivery : Delivery} (h : s.block = some delivery) :
    (s.deliver settings).callbacks < s.callbacks := by
  simp only [callbacks, h, Option.map_some, Option.getD_some]
  cases delivery with
  | arming => simp [deliver, h, schedule, Delivery.sections]
  | enqueuing => simp [deliver, h, Delivery.sections]
  | appending data hasWriter =>
    obtain ⟨writer, delivery, heq, -, hnext⟩ := append_same settings s data hasWriter
    simp only [deliver, h, heq, Option.map_some, Option.getD_some]
    rcases hnext with rfl | ⟨fault, rfl⟩
    · simp only [Delivery.sections]
      omega
    · simp only [Delivery.sections, Recording.sections]
      omega
  | recording recording =>
    obtain ⟨storedFault, jobs, hrecord, -⟩ := record_same s recording
    simp only [deliver, h, hrecord, Delivery.sections]
    cases hnext : (s.record recording).2 with
    | none =>
      have := recording.sections_pos
      simp only [Option.map_none, Option.getD_none]
      omega
    | some =>
      have := record_sections hnext
      simp only [Option.map_some, Option.getD_some, Delivery.sections]
      omega

theorem recordFault_callbacks (h : s.faults[index]? = some recording) :
    (s.recordFault index).callbacks < s.callbacks := by
  obtain ⟨storedFault, jobs, hrecord, -⟩ := record_same s recording
  rcases hres : s.record recording with ⟨t, next⟩
  rw [hres] at hrecord
  obtain rfl : t = { s with storedFault, jobs } := hrecord
  simp only [recordFault, h, hres]
  cases next with
  | none =>
    have := sum_eraseIdx_lt h
    simp only [callbacks]
    omega
  | some =>
    have := sum_set_lt h (record_sections (congrArg Prod.snd hres))
    simp only [callbacks]
    omega

/-- The thread that helps while `finish` waits for the microphone. -/
def stopHelper (s : SittingCapture) : Thread :=
  match s.block, s.faults with
  | some _, _ => .block
  | none, _ :: _ => .fault
  | none, [] => .control

theorem stopHelper_same (hblock : t.block = s.block) (hfaults : t.faults = s.faults) :
    t.stopHelper = s.stopHelper := by
  unfold stopHelper
  rw [hblock, hfaults]

theorem stopHelper_cases (s : SittingCapture) :
    (s.stopHelper = .block ∧ s.block ≠ none) ∨ (s.stopHelper = .fault ∧ s.faults ≠ []) ∨
      (s.stopHelper = .control ∧ s.block = none ∧ s.faults = []) := by
  unfold stopHelper
  cases hblock : s.block with
  | some => exact .inl ⟨rfl, by simp⟩
  | none =>
    cases hfaults : s.faults with
    | cons => exact .inr (.inl ⟨rfl, by simp⟩)
    | nil => exact .inr (.inr ⟨rfl, rfl, rfl⟩)

/-- The callbacks of a microphone that begins no more of them return. -/
theorem stop_progress : (threads settings).Progress (fun _ _ => True)
    (fun s => s.live = false ∧ ∃ ending, s.control = .stopping ending) (fun s => s.control.Early)
    callbacks stopHelper where
  ready s _ _ hP := by
    obtain ⟨hlive, ending, hcontrol⟩ := hP
    rcases s.stopHelper_cases with ⟨h, hblock⟩ | ⟨h, hfaults⟩ | ⟨h, hblock, hfaults⟩ <;> rw [h]
    · exact hblock
    · exact hfaults
    · simp [threads, CanAdvance, hcontrol, Silent, hlive, hblock, hfaults]
  step s k _ hP := by
    obtain ⟨hlive, ending, hcontrol⟩ := hP
    by_cases hadvance : ∃ answers, k = .advance answers
    · obtain ⟨answers, rfl⟩ := hadvance
      simp only [threads, step, advance, hcontrol]
      split
      · exact .inl trivial
      · next hbusy =>
        refine .inr ⟨⟨hlive, ending, hcontrol⟩, .inr ⟨rfl, rfl, ?_⟩⟩
        rcases s.stopHelper_cases with ⟨h, -⟩ | ⟨h, -⟩ | ⟨h, hblock, hfaults⟩
        · simp [h]
        · simp [h]
        · exact absurd ⟨hlive, by simp [hblock], by simp [hfaults]⟩ hbusy
    have hother : ∀ answers, k ≠ .advance answers := fun answers heq => hadvance ⟨answers, heq⟩
    have hframe := Frame.step settings s hother
    have hdead : (step settings s k).live = false :=
      Bool.eq_false_iff.2 fun h => absurd (hframe.live h) (by simp [hlive])
    refine .inr ⟨⟨hdead, ending, hframe.control.trans hcontrol⟩, ?_⟩
    by_cases hdeliver : k = .deliver
    · subst hdeliver
      cases hblock : s.block with
      | none =>
        have heq : s.deliver settings = s := by simp only [deliver, hblock]
        exact .inr ⟨congrArg _ heq, congrArg _ heq, by
          rcases s.stopHelper_cases with ⟨-, hsome⟩ | ⟨h, -⟩ | ⟨h, -⟩
          · exact absurd hblock hsome
          · simp [h, threads]
          · simp [h, threads]⟩
      | some => exact .inl (deliver_callbacks hblock)
    by_cases hrecord : ∃ index, k = .recordFault index
    · obtain ⟨index, rfl⟩ := hrecord
      cases hfault : s.faults[index]? with
      | none =>
        have heq : s.recordFault index = s := by simp only [recordFault, hfault]
        refine .inr ⟨congrArg _ heq, congrArg _ heq, ?_⟩
        rcases s.stopHelper_cases with ⟨h, -⟩ | ⟨h, hfaults⟩ | ⟨h, -⟩ <;> rw [h]
        · simp [threads]
        · intro hmoves
          obtain rfl : index = 0 := Step.recordFault.inj hmoves
          exact hfaults (by simpa using hfault)
        · simp [threads]
      | some => exact .inl (recordFault_callbacks hfault)
    · have hindex : ∀ index, k ≠ .recordFault index := fun index heq => hrecord ⟨index, heq⟩
      have hspares := step_spares settings s hother
      have hblock := hspares.block hdeliver (.inl hlive)
      have hfaults := hspares.callbacks hindex hlive
      refine .inr ⟨?_, stopHelper_same hblock hfaults, ?_⟩
      · simp only [threads, callbacks, hblock, hfaults]
      · rcases s.stopHelper_cases with ⟨h, -⟩ | ⟨h, -⟩ | ⟨h, -⟩ <;> rw [h]
        · exact hdeliver
        · exact hindex 0
        · exact hadvance

/-- The microphone stops to call back once it is told to. -/
theorem silence_progress : (threads settings).Progress (fun _ _ => True)
    (fun s => s.live = true ∧ ∃ ending, s.control = .stopping ending)
    (fun s => s.live = false ∧ ∃ ending, s.control = .stopping ending)
    (fun _ => 0) fun _ => Thread.microphone where
  ready s _ _ hP := hP
  step s k _ hP := by
    obtain ⟨hlive, ending, hcontrol⟩ := hP
    by_cases hadvance : ∃ answers, k = .advance answers
    · obtain ⟨answers, rfl⟩ := hadvance
      have heq : s.advance answers = s := by
        simp only [advance, hcontrol]
        rw [if_neg fun hsilent => by simp [Silent, hlive] at hsilent]
      simp only [threads, step, heq]
      exact .inr ⟨⟨hlive, ending, hcontrol⟩, .inr ⟨trivial, trivial, by simp⟩⟩
    by_cases hsilence : k = .silence
    · subst hsilence
      exact .inl ⟨by simp [threads, step, hcontrol], ending, by simp [threads, step, hcontrol]⟩
    have hframe := Frame.step settings s fun answers heq => hadvance ⟨answers, heq⟩
    have hstopping : ∃ ending, (step settings s k).control = .stopping ending :=
      ⟨ending, hframe.control.trans hcontrol⟩
    cases hafter : (step settings s k).live with
    | false => exact .inl ⟨hafter, hstopping⟩
    | true => exact .inr ⟨⟨hafter, hstopping⟩, .inr ⟨rfl, rfl, hsilence⟩⟩

/-! ## From `finish` to the update -/

section

variable {s : SittingCapture} {steps : Nat → Step} {n : Nat}

theorem phase_after (hinv : Invariant settings s) (k : Nat) :
    Phase ((threads settings).after s steps k) :=
  (Threads.after_keeps (m := threads settings) (fun _ k h => h.step k) hinv k).phase

theorem ended_of_late (hfair : (threads settings).Fair s steps)
    (h : ((threads settings).after s steps n).control.Late) :
    (threads settings).Reaches s steps n Ended :=
  late_progress.leadsTo hfair (fun _ _ => trivial) h

theorem ended_of_flushing (hinv : Invariant settings s) (hfair : (threads settings).Fair s steps)
    (h : ∃ ending fault, ((threads settings).after s steps n).control = .flushing ending fault) :
    (threads settings).Reaches s steps n Ended :=
  (flush_progress.leadsTo hfair (fun k _ => phase_after hinv k) h).trans fun _ _ => ended_of_late hfair

theorem ended_of_early (hinv : Invariant settings s) (hfair : (threads settings).Fair s steps)
    (h : ((threads settings).after s steps n).control.Early) :
    (threads settings).Reaches s steps n Ended :=
  (early_progress.leadsTo hfair (fun _ _ => trivial) h).trans fun _ _ hnext =>
    hnext.elim (ended_of_flushing hinv hfair) (ended_of_late hfair)

theorem ended_of_stopping (hinv : Invariant settings s) (hfair : (threads settings).Fair s steps)
    (h : ∃ ending, ((threads settings).after s steps n).control = .stopping ending) :
    (threads settings).Reaches s steps n Ended := by
  have hdead : ∀ k, n ≤ k → (((threads settings).after s steps k).live = false ∧
      ∃ ending, ((threads settings).after s steps k).control = .stopping ending) →
      (threads settings).Reaches s steps k Ended := fun k _ h =>
    (stop_progress.leadsTo hfair (fun _ _ => trivial) h).trans fun _ _ => ended_of_early hinv hfair
  cases hlive : ((threads settings).after s steps n).live with
  | false => exact hdead n (Nat.le_refl n) ⟨hlive, h⟩
  | true => exact (silence_progress.leadsTo hfair (fun _ _ => trivial) ⟨hlive, h⟩).trans hdead

/-- A `finish` that is under way emits its update. -/
theorem ended_of_finishing (hinv : Invariant settings s) (hfair : (threads settings).Fair s steps)
    (h : ((threads settings).after s steps n).Finishing) :
    (threads settings).Reaches s steps n Ended := by
  cases @phase_after settings s steps hinv n with
  | paused state | arming state | recording state => simp [Finishing, state] at h
  | stopping ending _ control => exact ended_of_stopping hinv hfair ⟨ending, control⟩
  | ending _ control =>
    cases hcontrol : ((threads settings).after s steps n).control with
    | deciding _ | draining _ _ => exact ended_of_early hinv hfair (by rw [hcontrol]; trivial)
    | flushing ending fault => exact ended_of_flushing hinv hfair ⟨ending, fault, hcontrol⟩
    | settling _ _ _ | closing _ _ _ => exact ended_of_late hfair (by rw [hcontrol]; trivial)
    | _ => simp [hcontrol, Control.Ends] at control
  | emitting _ _ _ _ control => exact ended_of_late hfair (by rw [control]; trivial)
  | ended last terminal _ _ _ _ _ updates => exact .now ⟨last, terminal, by rw [updates]; simp⟩

end

/-! ## The jobs -/

/-- The jobs before the first that ends the sitting. -/
def untilEnd : List Job → Nat
  | [] | .fail _ :: _ | .finish _ :: _ => 0
  | .activate :: rest | .markReady :: rest => untilEnd rest + 1

theorem untilEnd_append {jobs : List Job} (h : ∃ job ∈ jobs, job.Ends) (more : List Job) :
    untilEnd (jobs ++ more) = untilEnd jobs := by
  induction jobs with
  | nil => simp at h
  | cons first rest ih =>
    have hrest : ¬ first.Ends → ∃ job ∈ rest, job.Ends := fun hnot => by
      obtain ⟨job, hmem, hends⟩ := h
      rcases List.mem_cons.1 hmem with rfl | hmem
      · exact absurd hends hnot
      · exact ⟨job, hmem, hends⟩
    cases first with
    | activate | markReady => exact congrArg (· + 1) (ih (hrest id))
    | fail fault | finish ending => rfl

def Control.busy : Control → Nat
  | .idle => 0
  | _ => 1

/-- Before `finish` the control queue is in one of three places. -/
theorem Phase.control_of_not_finishing (h : Phase s) (hnot : ¬ s.Finishing) :
    s.control = .idle ∨ s.control = .starting ∨ s.control = .announcing := by
  cases h with
  | paused _ control => exact .inl control
  | arming _ control => exact control.imp id .inl
  | recording _ _ _ _ _ updates => exact updates.symm.imp And.left fun h => .inr h.1
  | stopping _ state | ending state => exact absurd (.inl state) hnot
  | emitting _ _ _ state | ended _ _ state => exact absurd (.inr state) hnot

/-- Before `finish` a section takes a job, or the control queue becomes free for one. -/
theorem untilEnd_advance (hphase : Phase s) (hready : s.CanAdvance) (hnot : ¬ s.Finishing)
    (hsection : Section s t) (hnot' : ¬ t.Finishing) :
    2 * untilEnd t.jobs + t.control.busy < 2 * untilEnd s.jobs + s.control.busy := by
  have hcontrol := hphase.control_of_not_finishing hnot
  cases hsection with
  | waits hwait => exact absurd hready hwait
  | passes turn ended =>
    cases turn with
    | job first rest _ jobs =>
      cases first with
      | activate | markReady =>
        simp only [jobs, untilEnd, Control.busy]
        omega
      | fail | finish => exact absurd (.inr (ended _ rfl trivial)) hnot
    | start control => simp [control, Control.busy]
  | activates rest _ jobs | readies rest _ jobs =>
    simp only [jobs, untilEnd, Control.busy]
    omega
  | finishes => exact absurd (.inl rfl) hnot'
  | announces control => simp [control, emit, Control.busy]
  | stops _ control | decides _ control | drains _ _ control | flushes _ _ control
  | settles _ _ _ control | closes _ _ _ control | emits _ _ _ control =>
    simp [control] at hcontrol

theorem queue_ready (hphase : Phase s) (h : (∃ job ∈ s.jobs, job.Ends) ∧ ¬ s.Finishing) :
    s.CanAdvance := by
  obtain ⟨⟨job, hmem, -⟩, hnot⟩ := h
  unfold CanAdvance
  rcases hphase.control_of_not_finishing hnot with h | h | h <;> rw [h]
  · exact List.ne_nil_of_mem hmem
  · trivial
  · trivial

/-- A queued job that ends the sitting runs. -/
theorem queue_progress : (threads settings).Progress (fun s _ => Phase s)
    (fun s => (∃ job ∈ s.jobs, job.Ends) ∧ ¬ s.Finishing) Finishing
    (fun s => 2 * untilEnd s.jobs + s.control.busy) fun _ => Thread.control where
  ready s _ hphase hP := queue_ready hphase hP
  step s k hphase hP := by
    have hready := queue_ready hphase hP
    obtain ⟨⟨job, hmem, hends⟩, hnot⟩ := hP
    by_cases hadvance : ∃ answers, k = .advance answers
    · obtain ⟨answers, rfl⟩ := hadvance
      have hsection := advance_section s answers
      rcases mem_jobs_advance hsection hmem hends with hfinishing | hkept
      · exact .inl hfinishing
      by_cases hnot' : (s.advance answers).Finishing
      · exact .inl hnot'
      exact .inr ⟨⟨⟨job, hkept, hends⟩, hnot'⟩,
        .inl (untilEnd_advance hphase hready hnot hsection hnot')⟩
    · have hother : ∀ answers, k ≠ .advance answers := fun answers heq => hadvance ⟨answers, heq⟩
      have hframe := Frame.step settings s hother
      obtain ⟨more, hjobs⟩ := (step_spares settings s hother).jobs
      refine .inr ⟨⟨⟨job, ?_, hends⟩, ?_⟩, .inr ⟨?_, rfl, hadvance⟩⟩
      · simp only [threads, ← hjobs]
        exact List.mem_append_left _ hmem
      · simp only [threads, Finishing, hframe.state]
        exact hnot
      · simp only [threads, ← hjobs, hframe.control, untilEnd_append ⟨job, hmem, hends⟩]

end YawnApp.Capture.SittingCapture
