import YawnApp.Capture.SittingLiveness

set_option autoImplicit false

/-!
# The sitting stream is exact

A fault on its way to `record` and a reader that no longer drains the pipe both make
the end of the sitting due; with the phases of `finish` every such sitting ends.
-/

namespace YawnApp.Capture.SittingCapture

open YawnApp.Foundation

variable {settings : Settings} {room : Nat}

/-! ## A thread in `record` -/

/-- The end of the sitting is queued or under way. -/
def Queued (s : SittingCapture) : Prop := s.Finishing ∨ ∃ job ∈ s.jobs, job.Ends

/-- Where a thread is in `record`, seen by a function of the state: its own step is
the next section, and every other step leaves it there. -/
structure InRecord (settings : Settings) (pending : SittingCapture → Option Recording)
    (thread : Thread) : Prop where
  ready : ∀ s recording, pending s = some recording → (threads settings).ready thread s
  step : ∀ s k recording, Invariant settings s → pending s = some recording →
    (pending (step settings s k) = some recording ∧ ¬ (threads settings).moves thread s k) ∨
      ((step settings s k).state = s.state ∧
        (∀ job ∈ (s.record recording).1.jobs, job ∈ (step settings s k).jobs) ∧
        ∀ next, (s.record recording).2 = some next → pending (step settings s k) = some next)

/-- The thread queues the failure. -/
theorem record_progress {pending : SittingCapture → Option Recording} {thread : Thread}
    (h : InRecord settings pending thread) :
    (threads settings).Progress (fun s _ => Invariant settings s)
      (fun s => (∃ recording, pending s = some recording) ∧ ¬ s.Queued) Queued
      (fun s => ((pending s).map Recording.sections).getD 0) fun _ => thread where
  ready s _ _ hP := by
    obtain ⟨⟨recording, hpending⟩, -⟩ := hP
    exact h.ready s recording hpending
  step s k hinv hP := by
    obtain ⟨⟨recording, hpending⟩, hnot⟩ := hP
    by_cases hqueued : (step settings s k).Queued
    · exact .inl hqueued
    refine .inr ?_
    rcases h.step s k recording hinv hpending with ⟨hsame, hmoves⟩ | ⟨hstate, hjobs, hnext⟩
    · exact ⟨⟨⟨recording, hsame⟩, hqueued⟩, .inr ⟨by simp only [threads, hsame, hpending], rfl, hmoves⟩⟩
    · rcases Due.record s recording with hfinishing | ⟨next, heq⟩ | ⟨job, hmem, hends⟩
      · exact absurd (.inl hfinishing) hnot
      · refine ⟨⟨⟨next, hnext next heq⟩, hqueued⟩, .inl ?_⟩
        simp only [threads, hnext next heq, hpending, Option.map_some, Option.getD_some]
        exact record_sections heq
      · exact absurd (.inr ⟨job, hjobs job hmem, hends⟩) hqueued

/-- The block that a callback failed. -/
def blockPending (s : SittingCapture) : Option Recording :=
  match s.block with
  | some (.recording recording) => some recording
  | _ => none

theorem blockPending_eq {s : SittingCapture} {recording : Recording} :
    s.blockPending = some recording ↔ s.block = some (.recording recording) := by
  unfold blockPending
  cases s.block with
  | none => simp
  | some delivery => cases delivery <;> simp

/-- The report of the writer. -/
def writerPending (s : SittingCapture) : Option Recording :=
  match s.writer.thread with
  | .reporting recording => some recording
  | _ => none

theorem writerPending_eq {s : SittingCapture} {recording : Recording} :
    s.writerPending = some recording ↔ s.writer.thread = .reporting recording := by
  unfold writerPending
  cases s.writer.thread <;> simp

/-- The oldest fault of the microphone. -/
def faultPending (s : SittingCapture) : Option Recording := s.faults.head?

theorem faultPending_set {faults : List Recording} {recording : Recording}
    (h : faults[0]? = some recording) (next : Recording) : (faults.set 0 next).head? = some next := by
  cases faults with
  | nil => simp at h
  | cons => rfl

/-- A later fault leaves the oldest where it is. -/
theorem faultPending_recordFault (s : SittingCapture) (index : Nat) :
    (s.recordFault (index + 1)).faultPending = s.faultPending := by
  unfold recordFault
  cases hfault : s.faults[index + 1]? with
  | none => rfl
  | some recording =>
    obtain ⟨storedFault, jobs, hsame, -⟩ := record_same s recording
    rcases hres : s.record recording with ⟨t, next⟩
    rw [hres] at hsame
    obtain rfl : t = { s with storedFault, jobs } := hsame
    simp only [hres]
    cases hfaults : s.faults with
    | nil => simp [hfaults] at hfault
    | cons => cases next <;> simp [faultPending, hfaults]

section

variable {s : SittingCapture} {k : Step}

/-- The thread of a block is moved by its own steps. -/
theorem block_same (hinv : Invariant settings s) (hblock : s.block ≠ none) (hdeliver : k ≠ .deliver) :
    (step settings s k).block = s.block := by
  by_cases hadvance : ∃ answers, k = .advance answers
  · obtain ⟨answers, rfl⟩ := hadvance
    exact (Untouched.advance hinv.phase hinv.streams (advance_section s answers)).block
  · exact (step_spares settings s fun answers heq => hadvance ⟨answers, heq⟩).block hdeliver (.inr hblock)

/-- So is the queue of the writer. -/
theorem thread_same (hinv : Invariant settings s) (hwrite : ∀ outcome, k ≠ .write outcome) :
    (step settings s k).writer.thread = s.writer.thread := by
  by_cases hadvance : ∃ answers, k = .advance answers
  · obtain ⟨answers, rfl⟩ := hadvance
    exact (Untouched.advance hinv.phase hinv.streams (advance_section s answers)).thread
  · exact (step_spares settings s fun answers heq => hadvance ⟨answers, heq⟩).thread hwrite

/-- The faults of the microphone wait in their order. -/
theorem faults_grow (hinv : Invariant settings s) (hrecord : ∀ index, k ≠ .recordFault index) :
    s.faults <+: (step settings s k).faults := by
  by_cases hadvance : ∃ answers, k = .advance answers
  · obtain ⟨answers, rfl⟩ := hadvance
    exact (Untouched.advance hinv.phase hinv.streams (advance_section s answers)).faults ▸ List.prefix_rfl
  · exact (step_spares settings s fun answers heq => hadvance ⟨answers, heq⟩).faults hrecord

end

theorem block_inRecord : InRecord settings blockPending .block where
  ready s recording hpending := by
    simp [threads, blockPending_eq.1 hpending]
  step s k recording hinv hpending := by
    have hblock := blockPending_eq.1 hpending
    by_cases hdeliver : k = .deliver
    · subst hdeliver
      obtain ⟨storedFault, jobs, hrecord, -⟩ := record_same s recording
      refine .inr ⟨?_, ?_, fun next hnext => ?_⟩
      · simp only [step, deliver, hblock, hrecord]
      · simp only [step, deliver, hblock]
        exact fun job hmem => hmem
      · rw [blockPending_eq]
        simp only [step, deliver, hblock, hnext, Option.map_some]
    · have hsame := block_same hinv (by simp [hblock]) hdeliver
      exact .inl ⟨blockPending_eq.2 (hsame.trans hblock), hdeliver⟩

theorem writer_inRecord : InRecord settings writerPending .writer where
  ready s recording hpending := by
    have hthread := writerPending_eq.1 hpending
    simp [threads, s.writer.drained_iff, hthread]
  step s k recording hinv hpending := by
    have hthread := writerPending_eq.1 hpending
    by_cases hwrite : ∃ outcome, k = .write outcome
    · obtain ⟨outcome, rfl⟩ := hwrite
      obtain ⟨storedFault, jobs, hrecord, -⟩ := record_same s recording
      refine .inr ⟨?_, ?_, fun next hnext => ?_⟩
      · simp only [step, write_of_reporting settings hthread, onThread, hrecord]
      · simp only [step, write_of_reporting settings hthread, onThread]
        exact fun job hmem => hmem
      · rw [writerPending_eq]
        simp only [step, write_of_reporting settings hthread, onThread, hnext]
        rfl
    · have hsame := thread_same hinv fun outcome heq => hwrite ⟨outcome, heq⟩
      refine .inl ⟨writerPending_eq.2 (hsame.trans hthread), ?_⟩
      rintro ⟨outcome, heq, -⟩
      exact hwrite ⟨outcome, heq⟩

theorem fault_inRecord : InRecord settings faultPending .fault where
  ready s recording hpending := by
    rintro hempty
    simp [faultPending, hempty] at hpending
  step s k recording hinv hpending := by
    have hzero : s.faults[0]? = some recording := by
      rw [← List.head?_eq_getElem?]
      exact hpending
    by_cases hrecord : ∃ index, k = .recordFault index
    · obtain ⟨index, rfl⟩ := hrecord
      cases index with
      | zero =>
        obtain ⟨storedFault, jobs, hsame, -⟩ := record_same s recording
        rcases hres : s.record recording with ⟨t, next⟩
        rw [hres] at hsame
        obtain rfl : t = { s with storedFault, jobs } := hsame
        simp only [step, recordFault, hzero, hres]
        cases next with
        | none => exact .inr ⟨rfl, fun job hmem => hmem, fun next hnext => by cases hnext⟩
        | some next =>
          refine .inr ⟨rfl, fun job hmem => hmem, fun other hother => ?_⟩
          obtain rfl := Option.some.inj hother
          exact faultPending_set hzero next
      | succ index =>
        refine .inl ⟨?_, by simp [threads]⟩
        rw [← hpending]
        exact faultPending_recordFault s index
    · obtain ⟨more, hmore⟩ := faults_grow hinv fun index heq => hrecord ⟨index, heq⟩
      refine .inl ⟨?_, fun heq => hrecord ⟨0, heq⟩⟩
      simp only [faultPending, ← hmore] at hpending ⊢
      rw [List.head?_append, hpending]
      rfl

/-! ## A sitting whose end is due -/

section

variable {s : SittingCapture} {steps : Nat → Step} {n : Nat}

theorem invariant_after (hinv : Invariant settings s) (k : Nat) :
    Invariant settings ((threads settings).after s steps k) :=
  Threads.after_keeps (m := threads settings) (fun _ k h => h.step k) hinv k

theorem ended_of_queued (hinv : Invariant settings s) (hfair : (threads settings).Fair s steps)
    (h : ((threads settings).after s steps n).Queued) :
    (threads settings).Reaches s steps n Ended := by
  by_cases hfinishing : ((threads settings).after s steps n).Finishing
  · exact ended_of_finishing hinv hfair hfinishing
  · exact (queue_progress.leadsTo hfair (fun k _ => phase_after hinv k)
      ⟨h.resolve_left hfinishing, hfinishing⟩).trans fun _ _ => ended_of_finishing hinv hfair

theorem ended_of_inRecord (hinv : Invariant settings s) (hfair : (threads settings).Fair s steps)
    {pending : SittingCapture → Option Recording} {thread : Thread}
    (hrecord : InRecord settings pending thread) {recording : Recording}
    (h : pending ((threads settings).after s steps n) = some recording) :
    (threads settings).Reaches s steps n Ended := by
  by_cases hqueued : ((threads settings).after s steps n).Queued
  · exact ended_of_queued hinv hfair hqueued
  · exact ((record_progress hrecord).leadsTo hfair (fun k _ => invariant_after hinv k)
      ⟨⟨recording, h⟩, hqueued⟩).trans fun _ _ => ended_of_queued hinv hfair

/-- A sitting whose end is due ends. -/
theorem ended_of_due (hinv : Invariant settings s) (hfair : (threads settings).Fair s steps)
    (h : Due ((threads settings).after s steps n)) : (threads settings).Reaches s steps n Ended := by
  cases h with
  | finishing h => exact ended_of_finishing hinv hfair h
  | job job mem ends => exact ended_of_queued hinv hfair (.inr ⟨job, mem, ends⟩)
  | block recording h => exact ended_of_inRecord hinv hfair block_inRecord (blockPending_eq.2 h)
  | writer recording h => exact ended_of_inRecord hinv hfair writer_inRecord (writerPending_eq.2 h)
  | faults h =>
    obtain ⟨first, rest, hfaults⟩ := List.exists_cons_of_ne_nil h
    exact ended_of_inRecord hinv hfair fault_inRecord (by rw [faultPending, hfaults]; rfl)

end

/-! ## A reader that does not drain -/

/-- The bytes that the writer has queued and not written. -/
def unwritten (s : SittingCapture) : Nat :=
  s.writer.thread.unwritten.length + s.writer.queue.flatten.length

/-- More waits than the pipe takes, or a write has failed. -/
def Stuck (s : SittingCapture) : Prop :=
  (∃ data alreadyFailed fault, s.writer.thread = .settling data alreadyFailed (some fault)) ∨
    s.room < s.unwritten

/-- What a job may still take of the writer and the clock before the next write. -/
def Writing.stage (settings : Settings) (now : Nat) : Writing → Nat
  | .settling _ _ none => settings.writeStall + 3
  | .idle => settings.writeStall + 2
  | .writing _ _ deadline => 1 + (deadline - now)
  | .settling _ _ (some _) | .reporting _ => 0

def stuckRank (settings : Settings) (s : SittingCapture) : Nat :=
  s.room * (settings.writeStall + 4) + s.writer.thread.stage settings s.now

/-- Steps of other threads leave the writer where it is and add to what waits. -/
theorem stuck_same {s : SittingCapture} {k : Step} (hinv : Invariant settings s)
    (hwrite : ∀ outcome, k ≠ .write outcome) (hdrain : ∀ count, k ≠ .drain count) :
    (step settings s k).room = s.room ∧ s.unwritten ≤ (step settings s k).unwritten := by
  have hthread := thread_same hinv hwrite
  unfold unwritten
  rw [hthread]
  by_cases hadvance : ∃ answers, k = .advance answers
  · obtain ⟨answers, rfl⟩ := hadvance
    have hsame := Untouched.advance hinv.phase hinv.streams (advance_section s answers)
    simp only [step, hsame.room, hsame.queue]
    exact ⟨trivial, Nat.le_refl _⟩
  · have hspares := step_spares settings s fun answers heq => hadvance ⟨answers, heq⟩
    obtain ⟨more, hqueue⟩ := hspares.queue hwrite
    refine ⟨hspares.room hwrite hdrain, ?_⟩
    rw [← hqueue, List.flatten_append, List.length_append]
    omega

/-- A write of some bytes lowers the rank by more than a new job adds to it. -/
theorem stuckRank_wrote {count stall stage next : Nat} (hcount : 0 < count) (hroom : count ≤ room)
    (hnext : next ≤ stall + 3 ∨ next ≤ stage) :
    (room - count) * (stall + 4) + next < room * (stall + 4) + stage := by
  obtain ⟨left, rfl⟩ := Nat.exists_eq_add_of_le hroom
  have hmul : stall + 4 ≤ count * (stall + 4) := Nat.le_mul_of_pos_left _ hcount
  rw [Nat.add_sub_cancel_left, Nat.add_mul]
  omega

theorem whileUnwritten_stage (settings : Settings) (data : Bytes) (written deadline now : Nat) :
    (whileUnwritten data written deadline).stage settings now = settings.writeStall + 3 ∨
      (whileUnwritten data written deadline).stage settings now = 1 + (deadline - now) := by
  unfold whileUnwritten
  split
  · exact .inr rfl
  · exact .inl rfl

/-- A step of a stuck writer. -/
theorem write_stuck {s : SittingCapture} (hinv : Invariant settings s) (hfaulted : s.Faulted → Due s)
    (hnot : ¬ Due s) (hstuck : Stuck s) (outcome : WriteOutcome) :
    Due (s.write settings outcome) ∨ (Stuck (s.write settings outcome) ∧
      (stuckRank settings (s.write settings outcome) < stuckRank settings s ∨
        (s.write settings outcome = s ∧ (¬ s.Possible outcome ∨ ∃ data written deadline,
          s.writer.thread = .writing data written deadline ∧ s.now < deadline)))) := by
  have hclear : s.writer.storedFault.isSome = false :=
    Bool.eq_false_iff.2 fun hsome => hnot (hfaulted (.inr hsome))
  cases hthread : s.writer.thread with
  | idle =>
    cases hqueue : s.writer.queue with
    | nil =>
      rcases hstuck with ⟨data, alreadyFailed, fault, h⟩ | h
      · simp [hthread] at h
      · simp [unwritten, hthread, hqueue, Writing.unwritten] at h
    | cons data =>
      have haccepted : Accepted data := hinv.streams.queue data (by simp [hqueue])
      have hnext : whileUnwritten data 0 (s.now + settings.writeStall) =
          .writing data 0 (s.now + settings.writeStall) :=
        if_pos (List.length_pos_of_ne_nil haccepted.1)
      refine .inr ⟨.inr ?_, .inl ?_⟩
      · rcases hstuck with ⟨data, alreadyFailed, fault, h⟩ | h
        · simp [hthread] at h
        · simp only [unwritten, hthread, hqueue, Writing.unwritten, List.length_nil, List.flatten_cons,
            List.length_append] at h
          simp only [write, hthread, hqueue, hclear, unwritten, hnext, Writing.unwritten,
            List.drop_zero, Bool.false_eq_true, if_false]
          omega
      · simp only [write, hthread, hqueue, hclear, hnext, stuckRank, Writing.stage,
          Bool.false_eq_true, if_false]
        omega
  | writing data written deadline =>
    have hfailed : ∀ fault, Stuck (s.onThread (.settling data false (some fault))) ∧
        stuckRank settings (s.onThread (.settling data false (some fault))) < stuckRank settings s :=
      fun fault => by
        refine ⟨.inl ⟨data, false, fault, rfl⟩, ?_⟩
        simp only [stuckRank, onThread, hthread, Writing.stage]
        omega
    simp only [write, hthread]
    cases outcome with
    | wrote count =>
      simp only [writeWholeBlock]
      split
      · next hcount =>
        refine .inr ⟨.inr ?_, .inl ?_⟩
        · rcases hstuck with ⟨data, alreadyFailed, fault, h⟩ | h
          · simp [hthread] at h
          · simp only [unwritten, hthread, Writing.unwritten, List.length_drop] at h
            simp only [unwritten, onThread]
            rw [whileUnwritten_unwritten, List.length_drop]
            omega
        · simp only [stuckRank, onThread, hthread]
          apply stuckRank_wrote hcount.1 hcount.2.2
          rcases whileUnwritten_stage settings data (written + count) deadline s.now with h | h <;>
            rw [h]
          · exact .inl (Nat.le_refl _)
          · exact .inr (Nat.le_refl _)
      · next hcount => exact .inr ⟨hstuck, .inr ⟨rfl, .inl (by simpa [Possible, hthread] using hcount)⟩⟩
    | interrupted => exact .inr ⟨hstuck, .inr ⟨rfl, .inl (by simp [Possible, hthread])⟩⟩
    | wouldBlock pollErrno =>
      simp only [writeWholeBlock]
      split
      · next hbefore =>
        cases pollErrno with
        | none => exact .inr ⟨hstuck, .inr ⟨rfl, .inr ⟨data, written, deadline, rfl, hbefore⟩⟩⟩
        | some => exact .inr ⟨(hfailed _).1, .inl (hfailed _).2⟩
      · exact .inr ⟨(hfailed _).1, .inl (hfailed _).2⟩
    | failed => exact .inr ⟨(hfailed _).1, .inl (hfailed _).2⟩
  | settling data alreadyFailed failure =>
    have hnone : s.writer.storedFault = none := by simpa using hclear
    simp only [write, hthread]
    cases failure with
    | some fault =>
      refine .inl (.writer (.storing fault) ?_)
      simp [BoundedPipeWriter.settle, hnone]
    | none =>
      cases alreadyFailed with
      | true =>
        have hkept := hinv.streams.kept
        rw [hthread] at hkept
        simp [Writing.Kept, hnone] at hkept
      | false =>
        refine .inr ⟨.inr ?_, .inl ?_⟩
        · rcases hstuck with ⟨data, alreadyFailed, fault, h⟩ | h
          · simp [hthread] at h
          · simpa [unwritten, hthread, Writing.unwritten, BoundedPipeWriter.settle] using h
        · simp [stuckRank, hthread, Writing.stage, BoundedPipeWriter.settle]
  | reporting recording => exact absurd (.writer recording hthread) hnot

/-- A reader that does not drain what waits makes the end due. -/
theorem stuck_progress : (threads settings).Progress
    (fun s k => (Invariant settings s ∧ (s.Faulted → Due s)) ∧ ∀ count, k ≠ .drain count)
    (fun s => ¬ Due s ∧ Stuck s) Due (stuckRank settings) writerHelper where
  ready s _ _ hP := by
    obtain ⟨-, hstuck⟩ := hP
    unfold writerHelper
    cases hthread : s.writer.thread with
    | writing =>
      dsimp only
      split
      · trivial
      · simp [threads, s.writer.drained_iff, hthread]
    | idle =>
      intro hdrained
      rcases hstuck with ⟨data, alreadyFailed, fault, h⟩ | h
      · simp [hthread] at h
      · simp [unwritten, hthread, Writing.unwritten, (s.writer.drained_iff.1 hdrained).1] at h
    | settling | reporting => simp [threads, s.writer.drained_iff, hthread]
  step s k hallowed hP := by
    obtain ⟨⟨hinv, hfaulted⟩, hdrain⟩ := hallowed
    obtain ⟨hnot, hstuck⟩ := hP
    by_cases hdue : Due (step settings s k)
    · exact .inl hdue
    refine .inr ?_
    by_cases hwrite : ∃ outcome, k = .write outcome
    · obtain ⟨outcome, rfl⟩ := hwrite
      rcases write_stuck hinv hfaulted hnot hstuck outcome with h | ⟨hstuck', hlt | ⟨heq, hnowhere⟩⟩
      · exact absurd h hdue
      · exact ⟨⟨hdue, hstuck'⟩, .inl hlt⟩
      · exact ⟨⟨hdue, hstuck'⟩, .inr ⟨congrArg _ heq, congrArg _ heq, not_moves_of_write hnowhere⟩⟩
    have hother : ∀ outcome, k ≠ .write outcome := fun outcome heq => hwrite ⟨outcome, heq⟩
    have hthread := thread_same hinv hother
    obtain ⟨hroom, hmore⟩ := stuck_same hinv hother hdrain
    have hstuck' : Stuck (step settings s k) := by
      refine hstuck.imp (fun h => by rw [hthread]; exact h) fun h => ?_
      rw [hroom]
      exact Nat.lt_of_lt_of_le h hmore
    refine ⟨⟨hdue, hstuck'⟩, ?_⟩
    by_cases htick : ∃ nanoseconds, k = .tick nanoseconds
    · obtain ⟨nanoseconds, rfl⟩ := htick
      rcases tick_cases settings s nanoseconds with ⟨hpos, data, written, deadline, h, hbefore⟩ |
        ⟨htime, hsame, hmoves⟩
      · refine .inl ?_
        simp only [threads, step, stuckRank, h, Writing.stage]
        omega
      · refine .inr ⟨?_, hsame, hmoves⟩
        cases h : s.writer.thread with
        | writing data written deadline =>
          have hleft := htime data written deadline h
          dsimp only at hleft
          simp only [threads, step, stuckRank, h, Writing.stage, hleft]
        | idle => simp only [threads, step, stuckRank, h, Writing.stage]
        | settling data alreadyFailed failure =>
          cases failure <;> simp only [threads, step, stuckRank, h, Writing.stage]
        | reporting => simp only [threads, step, stuckRank, h, Writing.stage]
    · have hnow : (step settings s k).now = s.now := by
        by_cases hadvance : ∃ answers, k = .advance answers
        · obtain ⟨answers, rfl⟩ := hadvance
          exact (Untouched.advance hinv.phase hinv.streams (advance_section s answers)).now
        · exact (step_spares settings s fun answers heq => hadvance ⟨answers, heq⟩).now
            fun nanoseconds heq => htick ⟨nanoseconds, heq⟩
      refine .inr ⟨?_, writerHelper_same hthread hnow, ?_⟩
      · simp only [threads, stuckRank, hroom, hthread, hnow]
      · exact not_moves_of_other hother fun nanoseconds heq => htick ⟨nanoseconds, heq⟩

/-! ## The stream of a sitting -/

theorem after_sound {now : Nat} (steps : Nat → Step) (n : Nat) :
    let s := (threads settings).after (initial room now) steps n
    Invariant settings s ∧ (s.Faulted → Due s) := by
  refine Threads.after_keeps (m := threads settings)
    (I := fun s => Invariant settings s ∧ (s.Faulted → Due s)) (fun s k h => ?_) ?_ n
  · exact ⟨h.1.step k, Due.of_faulted_step h.2 h.1 k⟩
  · exact ⟨.initial room now, fun hfaulted => by simp [Faulted, initial, BoundedPipeWriter.opened] at hfaulted⟩

/-- A sitting ends after a fault, after a control or a failure that was queued, and
when the reader leaves more in the pipe than it takes. -/
theorem ended_of_reader {now : Nat} {steps : Nat → Step}
    (hfair : (threads settings).Fair (initial room now) steps) {n : Nat}
    (hstuck : ((threads settings).after (initial room now) steps n).room <
      ((threads settings).after (initial room now) steps n).unwritten)
    (hdrain : ∀ k, n ≤ k → ∀ count, steps k ≠ .drain count) :
    (threads settings).Reaches (initial room now) steps n Ended := by
  by_cases hdue : Due ((threads settings).after (initial room now) steps n)
  · exact ended_of_due (.initial room now) hfair hdue
  · exact (stuck_progress.leadsTo hfair (fun k hk => ⟨after_sound steps k, hdrain k hk⟩)
      ⟨hdue, .inr hstuck⟩).trans fun _ _ => ended_of_due (.initial room now) hfair

/-- Every run emits `recording` at most once and then one terminal update; what is
finalized was streamed to the last byte; what waits stays within the bound; and in a
fair run a sitting whose end is due, one with a fault, and one whose reader leaves
more than the pipe takes, come to their terminal update. -/
theorem stream_exact (settings : Settings) (room now : Nat) :
    (∀ steps : List Step,
      let s := run settings (initial room now) steps
      ((s.updates = [] ∨ s.updates = [.recording]) ∨
        ∃ last, IsTerminal last ∧ (s.updates = [last] ∨ s.updates = [.recording, last])) ∧
      (∀ samples, SittingCaptureUpdate.finalized ⟨samples⟩ ∈ s.updates →
        ¬ s.Faulted ∧ s.pipe = (streamed s.log).flatten ∧ s.pipe.length = 2 * samples) ∧
      s.writer.pendingBytes = s.writer.thread.held + s.writer.queue.flatten.length +
        (s.block.map Delivery.held).getD 0 ∧
      s.writer.pendingBytes ≤ settings.maxPendingBytes) ∧
    ∀ steps : Nat → Step, (threads settings).Fair (initial room now) steps → ∀ n,
      let s := (threads settings).after (initial room now) steps n
      s.Faulted ∨ Due s ∨ (s.room < s.unwritten ∧ ∀ k, n ≤ k → ∀ count, steps k ≠ .drain count) →
      (threads settings).Reaches (initial room now) steps n Ended := by
  refine ⟨fun steps => ?_, fun steps hfair n h => ?_⟩
  · have hinv : Invariant settings (run settings (initial room now) steps) :=
      (Invariant.initial room now).run steps
    refine ⟨hinv.phase.updates_cases, fun samples hmem => ?_, hinv.streams.pending, hinv.streams.bound⟩
    obtain ⟨hterminal, hsound⟩ := hinv.verdict.finalized samples hmem
    obtain ⟨hbytes, hlength⟩ := hsound.exact hinv.streams (hinv.phase.silent_of_terminal hterminal)
    exact ⟨by simp [Faulted, hsound.stored, hsound.writer], hbytes, hlength⟩
  · rcases h with hfaulted | hdue | ⟨hstuck, hdrain⟩
    · exact ended_of_due (.initial room now) hfair ((after_sound steps n).2 hfaulted)
    · exact ended_of_due (.initial room now) hfair hdue
    · exact ended_of_reader hfair hstuck hdrain

/-- Settings under which a write waits for one nanosecond. -/
def impatient : Settings := ⟨8, 1, "1e-09", by decide⟩

def answered : Answers := ⟨.ok (), .ok ()⟩

/-- A sitting that becomes ready and is given one sample. -/
def oneSample : List Step :=
  [.activate, .advance answered, .receive [1, 2], .deliver, .advance answered, .advance answered,
    .advance answered, .receive [3, 4], .deliver, .deliver]

/-- A turn of every thread; the pipe is always full. -/
def turn : Nat → Step
  | 0 => .advance answered
  | 1 => .write (.wouldBlock none)
  | 2 => .deliver
  | 3 => .recordFault 0
  | 4 => .silence
  | _ => .tick 1

def fullPipe (n : Nat) : Step := (oneSample[n]?).getD (turn (n % 6))

theorem fullPipe_late {n : Nat} (h : 10 ≤ n) : fullPipe n = turn (n % 6) := by
  have hlate : oneSample[n]? = none := by simpa [oneSample] using h
  rw [fullPipe, hlate, Option.getD_none]

theorem fullPipe_turn (n : Nat) {i : Nat} (hi : i < 6) : fullPipe (6 * (n + 10) + i) = turn i := by
  rw [fullPipe_late (by omega), Nat.mul_add_mod, Nat.mod_eq_of_lt hi]

theorem fullPipe_fair (s : SittingCapture) : (threads settings).Fair s fullPipe := by
  apply Threads.fair_of_turns
  intro thread n
  cases thread with
  | control =>
    refine ⟨6 * (n + 10) + 0, by omega, fun s _ => ?_⟩
    rw [fullPipe_turn n (i := 0) (by decide)]
    exact ⟨answered, rfl⟩
  | writer =>
    refine ⟨6 * (n + 10) + 1, by omega, fun s _ => ?_⟩
    rw [fullPipe_turn n (i := 1) (by decide)]
    refine ⟨_, rfl, ?_⟩
    unfold Possible
    cases s.writer.thread <;> trivial
  | block =>
    refine ⟨6 * (n + 10) + 2, by omega, fun s _ => ?_⟩
    rw [fullPipe_turn n (i := 2) (by decide)]
    rfl
  | fault =>
    refine ⟨6 * (n + 10) + 3, by omega, fun s _ => ?_⟩
    rw [fullPipe_turn n (i := 3) (by decide)]
    rfl
  | microphone =>
    refine ⟨6 * (n + 10) + 4, by omega, fun s _ => ?_⟩
    rw [fullPipe_turn n (i := 4) (by decide)]
    rfl
  | clock =>
    refine ⟨6 * (n + 10) + 5, by omega, fun s _ => ?_⟩
    rw [fullPipe_turn n (i := 5) (by decide)]
    exact ⟨1, Nat.one_pos, rfl⟩

theorem fullPipe_ne_drain {n : Nat} (h : 10 ≤ n) (count : Nat) : fullPipe n ≠ .drain count := by
  rw [fullPipe_late h]
  unfold turn
  split <;> simp

/-- A run whose reader takes the sample. -/
def drained : List Step :=
  oneSample ++ [.write .interrupted, .write (.wrote 1), .write (.wrote 1), .write .interrupted, .stop,
    .advance answered, .silence, .advance answered, .advance answered, .advance answered,
    .advance answered, .advance answered, .advance answered, .advance answered]

/-- A reader that takes nothing ends the sitting, and one that takes the sample has
it finalized. -/
theorem stream_exact_oneSample :
    (threads impatient).Reaches (initial 0 0) fullPipe 10 Ended ∧
      SittingCaptureUpdate.finalized ⟨1⟩ ∈ (run impatient (initial 8 0) drained).updates ∧
      (run impatient (initial 8 0) drained).pipe.length = 2 * 1 := by
  have hfinalized : SittingCaptureUpdate.finalized ⟨1⟩ ∈ (run impatient (initial 8 0) drained).updates := by
    decide
  have hroom : ((threads impatient).after (initial 0 0) fullPipe 10).room <
      ((threads impatient).after (initial 0 0) fullPipe 10).unwritten := by decide
  refine ⟨?_, hfinalized, (((stream_exact impatient 8 0).1 drained).2.1 1 hfinalized).2.2⟩
  exact (stream_exact impatient 0 0).2 fullPipe (fullPipe_fair _) 10
    (.inr (.inr ⟨hroom, fun k hk => fullPipe_ne_drain hk⟩))

end YawnApp.Capture.SittingCapture
