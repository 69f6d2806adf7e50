import YawnApp.Capture.SittingPhases

set_option autoImplicit false

/-!
# The stream of a sitting

What every interleaving keeps: the bytes that wait stay within the bound, and unless
something was lost, what was written and what still waits are the blocks that
arrived once the microphone was ready.
-/

namespace YawnApp.Capture.SittingCapture

/-! ## The blocks to stream -/

/-- The blocks whose `receive` began before the `stop` of the microphone returned. -/
def untilStopped : List Note → List Bytes
  | [] => []
  | .ready :: rest => untilStopped rest
  | .block data :: rest => data :: untilStopped rest
  | .stopped :: _ => []

/-- Those of them whose `receive` began after readiness. -/
def streamed : List Note → List Bytes
  | [] => []
  | .ready :: rest => untilStopped rest
  | .block _ :: rest => streamed rest
  | .stopped :: rest => streamed rest

variable {log : List Note}

theorem untilStopped_append_block (h : Note.stopped ∉ log) (data : Bytes) :
    untilStopped (log ++ [.block data]) = untilStopped log ++ [data] := by
  induction log with
  | nil => rfl
  | cons note rest ih =>
    obtain ⟨hne, hrest⟩ := not_or.1 (mt List.mem_cons.2 h)
    cases note with
    | ready => exact ih hrest
    | block other => exact congrArg (other :: ·) (ih hrest)
    | stopped => exact absurd rfl hne

theorem untilStopped_append_stopped (log : List Note) :
    untilStopped (log ++ [.stopped]) = untilStopped log := by
  induction log with
  | nil => rfl
  | cons note rest ih =>
    cases note with
    | ready => exact ih
    | block other => exact congrArg (other :: ·) ih
    | stopped => rfl

theorem streamed_of_not_ready (h : Note.ready ∉ log) : streamed log = [] := by
  induction log with
  | nil => rfl
  | cons note rest ih =>
    obtain ⟨hne, hrest⟩ := not_or.1 (mt List.mem_cons.2 h)
    cases note with
    | ready => exact absurd rfl hne
    | block | stopped => exact ih hrest

theorem streamed_append_ready (h : Note.ready ∉ log) : streamed (log ++ [.ready]) = [] := by
  induction log with
  | nil => rfl
  | cons note rest ih =>
    obtain ⟨hne, hrest⟩ := not_or.1 (mt List.mem_cons.2 h)
    cases note with
    | ready => exact absurd rfl hne
    | block | stopped => exact ih hrest

theorem streamed_append_block (hready : Note.ready ∈ log) (hstopped : Note.stopped ∉ log)
    (data : Bytes) : streamed (log ++ [.block data]) = streamed log ++ [data] := by
  induction log with
  | nil => exact absurd hready List.not_mem_nil
  | cons note rest ih =>
    obtain ⟨hne, hrest⟩ := not_or.1 (mt List.mem_cons.2 hstopped)
    cases note with
    | ready => exact untilStopped_append_block hrest data
    | block _ => exact ih ((List.mem_cons.1 hready).resolve_left (by simp)) hrest
    | stopped => exact absurd rfl hne

theorem streamed_append_stopped (log : List Note) : streamed (log ++ [.stopped]) = streamed log := by
  induction log with
  | nil => rfl
  | cons note rest ih =>
    cases note with
    | ready => exact untilStopped_append_stopped rest
    | block | stopped => exact ih

/-! ## What waits -/

/-- The bytes of a job of the writer that are still to be written. -/
def Writing.unwritten : Writing → Bytes
  | .writing data written _ => data.drop written
  | .idle | .settling .. | .reporting _ => []

/-- The bytes of a job that `pendingBytes` still holds. -/
def Writing.held : Writing → Nat
  | .writing data _ _ | .settling data _ _ => data.length
  | .idle | .reporting _ => 0

/-- The bytes of a job that were written and are not in `frames` yet. -/
def Writing.uncounted : Writing → Nat
  | .writing _ written _ => written
  | .settling data _ _ => data.length
  | .idle | .reporting _ => 0

/-- A job writes whole samples, and no more than there are. -/
def Writing.Whole : Writing → Prop
  | .writing data written _ => data.length % 2 = 0 ∧ written ≤ data.length
  | .settling data _ _ => data.length % 2 = 0
  | .idle | .reporting _ => True

/-- A job that found a fault, and the report of one, come after it was stored. -/
def Writing.Kept (storedFault : Option MeetingCaptureFault) : Writing → Prop
  | .settling _ true _ | .reporting _ => storedFault.isSome = true
  | .idle | .writing .. | .settling _ false _ => True

/-- The bytes of a callback that the queue of the writer has not got yet. -/
def Delivery.waiting : Delivery → Bytes
  | .appending data _ | .enqueuing data => data
  | .arming | .recording _ => []

/-- Those of them that `pendingBytes` holds. -/
def Delivery.held : Delivery → Nat
  | .enqueuing data => data.length
  | .arming | .appending .. | .recording _ => 0

/-- The writer accepts blocks of whole samples, and none without. -/
def Accepted (data : Bytes) : Prop := data ≠ [] ∧ data.length % 2 = 0

def Delivery.Whole : Delivery → Prop
  | .enqueuing data => Accepted data
  | .arming | .appending .. | .recording _ => True

/-- What arrived and was not written, in its order. -/
def waiting (s : SittingCapture) : Bytes :=
  s.writer.thread.unwritten ++ s.writer.queue.flatten ++ (s.block.map Delivery.waiting).getD []

theorem whileUnwritten_unwritten (data : Bytes) (written deadline : Nat) :
    (whileUnwritten data written deadline).unwritten = data.drop written := by
  unfold whileUnwritten
  split
  · rfl
  · next h => exact (List.drop_eq_nil_of_le (Nat.le_of_not_lt h)).symm

theorem whileUnwritten_held (data : Bytes) (written deadline : Nat) :
    (whileUnwritten data written deadline).held = data.length := by
  unfold whileUnwritten
  split <;> rfl

theorem whileUnwritten_uncounted {data : Bytes} {written : Nat} (h : written ≤ data.length)
    (deadline : Nat) : (whileUnwritten data written deadline).uncounted = written := by
  unfold whileUnwritten
  split
  · rfl
  · next hnot => exact Nat.le_antisymm (Nat.le_of_not_lt hnot) h

theorem whileUnwritten_whole {data : Bytes} {written : Nat} (heven : data.length % 2 = 0)
    (h : written ≤ data.length) (deadline : Nat) : (whileUnwritten data written deadline).Whole := by
  unfold whileUnwritten
  split
  · exact ⟨heven, h⟩
  · exact heven

theorem whileUnwritten_kept (data : Bytes) (written deadline : Nat)
    (storedFault : Option MeetingCaptureFault) :
    (whileUnwritten data written deadline).Kept storedFault := by
  unfold whileUnwritten
  split <;> trivial

/-! ## The invariant -/

/-- A block or a part of one was lost, and with it the sitting. -/
def Lost (s : SittingCapture) : Prop :=
  s.storedFault.isSome = true ∨ s.writer.storedFault.isSome = true ∨
    (∃ fault, s.block = some (.recording (.storing fault))) ∨
    ∃ data alreadyFailed fault, s.writer.thread = .settling data alreadyFailed (some fault)

/-- Every byte that arrived in time was written or waits. -/
structure Exact (s : SittingCapture) : Prop where
  bytes : s.pipe ++ s.waiting = (streamed s.log).flatten
  frames : 2 * s.writer.frames + s.writer.thread.uncounted = s.pipe.length

structure Streams (settings : Settings) (s : SittingCapture) : Prop where
  unopened : Note.ready ∉ s.log → (s.writer.queue = [] ∧ s.writer.thread = .idle) ∧ s.pipe = [] ∧
    (s.block = none ∨ s.block = some .arming)
  pending : s.writer.pendingBytes = s.writer.thread.held + s.writer.queue.flatten.length +
    (s.block.map Delivery.held).getD 0
  bound : s.writer.pendingBytes ≤ settings.maxPendingBytes
  thread : s.writer.thread.Whole
  kept : s.writer.thread.Kept s.writer.storedFault
  queue : ∀ data ∈ s.writer.queue, Accepted data
  block : ∀ delivery, s.block = some delivery → delivery.Whole
  exact : Lost s ∨ Exact s

namespace Streams

variable {settings : Settings} {s t : SittingCapture} {data : Bytes} {delivery : Delivery}
  {written deadline : Nat}

theorem initial (room now : Nat) : Streams settings (initial room now) where
  unopened _ := ⟨⟨rfl, rfl⟩, rfl, .inl rfl⟩
  pending := rfl
  bound := Nat.zero_le _
  thread := trivial
  kept := trivial
  queue := by simp [SittingCapture.initial, BoundedPipeWriter.opened]
  block := by simp [SittingCapture.initial]
  exact := .inr ⟨rfl, rfl⟩

/-- A step that leaves the stream alone. -/
theorem same (h : Streams settings s) (hstored : t.storedFault = s.storedFault)
    (hwriter : t.writer = s.writer) (hblock : t.block = s.block) (hpipe : t.pipe = s.pipe)
    (hlog : t.log = s.log) : Streams settings t where
  unopened := by rw [hlog, hwriter, hpipe, hblock]; exact h.unopened
  pending := by rw [hwriter, hblock]; exact h.pending
  bound := by rw [hwriter]; exact h.bound
  thread := by rw [hwriter]; exact h.thread
  kept := by rw [hwriter]; exact h.kept
  queue := by rw [hwriter]; exact h.queue
  block := by rw [hblock]; exact h.block
  exact := by
    refine h.exact.imp (fun hlost => ?_) fun hexact => ⟨?_, ?_⟩
    · simpa only [Lost, hstored, hwriter, hblock] using hlost
    · simpa only [waiting, hpipe, hwriter, hblock, hlog] using hexact.bytes
    · simpa only [hpipe, hwriter] using hexact.frames

/-- A fault of the coordinator only adds to what is lost. -/
theorem storing (h : Streams settings s) (storedFault : Option MeetingCaptureFault)
    (hstored : s.storedFault.isSome = true → storedFault.isSome = true) (jobs : List Job)
    (faults : List Recording) : Streams settings { s with storedFault, jobs, faults } where
  unopened := h.unopened
  pending := h.pending
  bound := h.bound
  thread := h.thread
  kept := h.kept
  queue := h.queue
  block := h.block
  exact := h.exact.imp (Or.imp_left hstored) fun hexact => ⟨hexact.bytes, hexact.frames⟩

/-! ### The microphone -/

/-- A block before readiness, or one of no bytes, is not streamed. -/
theorem noted (h : Streams settings s) (data : Bytes)
    (hlog : (streamed (s.log ++ [.block data])).flatten = (streamed s.log).flatten)
    (block : Option Delivery) (hblock : block = s.block ∨ s.block = none ∧ block = some .arming) :
    Streams settings { s with log := s.log ++ [.block data], block } := by
  have hwaits : (block.map Delivery.waiting).getD [] = (s.block.map Delivery.waiting).getD [] := by
    rcases hblock with rfl | ⟨hnone, rfl⟩
    · rfl
    · rw [hnone]
      rfl
  have hheld : (block.map Delivery.held).getD 0 = (s.block.map Delivery.held).getD 0 := by
    rcases hblock with rfl | ⟨hnone, rfl⟩
    · rfl
    · rw [hnone]
      rfl
  refine ⟨fun hready => ?_, by rw [hheld]; exact h.pending, h.bound, h.thread, h.kept, h.queue, ?_, ?_⟩
  · obtain ⟨hwriter, hpipe, hold⟩ := h.unopened (by simpa using hready)
    refine ⟨hwriter, hpipe, ?_⟩
    rcases hblock with rfl | ⟨-, rfl⟩
    · exact hold
    · exact .inr rfl
  · rcases hblock with rfl | ⟨-, rfl⟩
    · exact h.block
    · rintro delivery ⟨rfl⟩
      trivial
  · refine h.exact.imp (Or.imp_right (Or.imp_right (Or.imp_left ?_))) fun hexact => ⟨?_, hexact.frames⟩
    · rintro ⟨fault, hfault⟩
      refine ⟨fault, ?_⟩
      rcases hblock with rfl | ⟨hnone, -⟩
      · exact hfault
      · simp [hnone] at hfault
    · rw [hlog, ← hexact.bytes]
      simp only [waiting, hwaits]

/-- A block after readiness is. -/
theorem arrived (h : Streams settings s) (data : Bytes) (hready : Note.ready ∈ s.log)
    (hstopped : Note.stopped ∉ s.log) (hnone : s.block = none) (hasWriter : Bool) :
    Streams settings
      { s with log := s.log ++ [.block data], block := some (.appending data hasWriter) } where
  unopened hnot := absurd (List.mem_append_left _ hready) hnot
  pending := by simpa [hnone, Delivery.held] using h.pending
  bound := h.bound
  thread := h.thread
  kept := h.kept
  queue := h.queue
  block := by
    rintro delivery ⟨rfl⟩
    trivial
  exact := by
    refine h.exact.imp (Or.imp_right (Or.imp_right (Or.imp_left ?_))) fun hexact => ⟨?_, hexact.frames⟩
    · rintro ⟨fault, hfault⟩
      simp [hnone] at hfault
    · have hbytes := hexact.bytes
      simp only [waiting, hnone, Option.map_none, Option.getD_none, List.append_nil] at hbytes
      simp [waiting, streamed_append_block hready hstopped, Delivery.waiting, ← hbytes]

theorem receive (h : Streams settings s) (hphase : Phase s) (data : Bytes) (hlive : s.live = true)
    (hnone : s.block = none) : Streams settings (s.receive data) := by
  have hstopped := hphase.not_stopped_of_live hlive
  have hready := hphase.ready_iff_of_live hlive
  have hunready : Note.ready ∉ s.log →
      (streamed (s.log ++ [.block data])).flatten = (streamed s.log).flatten := fun hnot => by
    rw [streamed_of_not_ready hnot, streamed_of_not_ready (by simpa using hnot)]
  obtain ⟨block, heq, hcases⟩ := receive_cases s data
  rw [heq]
  rcases hcases with ⟨rfl, hdata | ⟨hrecording, hdraining⟩⟩ | ⟨rfl, harming⟩ | ⟨rfl, hstreams⟩
  · refine h.noted data ?_ s.block (.inl rfl)
    by_cases hmem : Note.ready ∈ s.log
    · simp [streamed_append_block hmem hstopped, hdata]
    · exact hunready hmem
  · refine h.noted data (hunready fun hmem => ?_) s.block (.inl rfl)
    rcases hready.1 hmem with hstate | ⟨hstate, hdrain⟩
    · exact hrecording hstate
    · simp [hdraining hstate] at hdrain
  · refine h.noted data (hunready fun hmem => ?_) _ (.inr ⟨hnone, rfl⟩)
    simpa [harming] using hready.1 hmem
  · exact h.arrived data (hready.2 hstreams) hstopped hnone s.hasWriter

/-! ### The thread of a block -/

/-- A block that waits in a callback came after readiness. -/
theorem ready_of_block (h : Streams settings s) (hblock : s.block = some delivery)
    (hne : delivery ≠ .arming) : Note.ready ∈ s.log := by
  by_contra hready
  rcases (h.unopened hready).2.2 with hnone | harming
  · simp [hblock] at hnone
  · exact hne (by simpa [hblock] using harming)

/-- What was lost stays lost when the thread of a block goes on. -/
theorem lost_goesOn (h : Lost s) (hblock : s.block = some delivery)
    (hne : ∀ fault, delivery ≠ .recording (.storing fault))
    (hstored : s.storedFault.isSome = true → t.storedFault.isSome = true)
    (hwriter : s.writer.storedFault.isSome = true → t.writer.storedFault.isSome = true)
    (hthread : t.writer.thread = s.writer.thread) : Lost t := by
  rcases h with hstored' | hwriter' | ⟨fault, hfault⟩ | hsettling
  · exact .inl (hstored hstored')
  · exact .inr (.inl (hwriter hwriter'))
  · exact absurd (by simpa [hblock] using hfault) (hne fault)
  · exact .inr (.inr (.inr (by rw [hthread]; exact hsettling)))

/-- A block that was refused is lost. -/
theorem refused (h : Streams settings s) (hready : Note.ready ∈ s.log)
    (hheld : (s.block.map Delivery.held).getD 0 = 0) (storedFault : Option MeetingCaptureFault)
    (hstored : s.writer.storedFault.isSome = true → storedFault.isSome = true)
    (fault : MeetingCaptureFault) :
    Streams settings { s with
      writer := { s.writer with storedFault }
      block := some (.recording (.storing fault)) } where
  unopened hnot := absurd hready hnot
  pending := by simpa [hheld, Delivery.held] using h.pending
  bound := h.bound
  thread := h.thread
  kept := by
    have hkept := h.kept
    cases hthread : s.writer.thread with
    | idle | writing => trivial
    | settling data alreadyFailed failure =>
      rw [hthread] at hkept
      cases alreadyFailed with
      | false => trivial
      | true => exact hstored hkept
    | reporting =>
      rw [hthread] at hkept
      exact hstored hkept
  queue := h.queue
  block := by
    rintro delivery ⟨rfl⟩
    trivial
  exact := .inl (.inr (.inr (.inl ⟨fault, rfl⟩)))

/-- What `append` of the writer decides. -/
theorem append_cases (settings : Settings) (w : BoundedPipeWriter) (data : Bytes) :
    (w.append settings data = ({ w with pendingBytes := w.pendingBytes + data.length }, true) ∧
        Accepted data ∧ w.pendingBytes + data.length ≤ settings.maxPendingBytes) ∨
      ∃ storedFault, w.append settings data = ({ w with storedFault }, false) ∧
        (w.storedFault.isSome = true → storedFault.isSome = true) := by
  unfold BoundedPipeWriter.append
  split
  · exact .inr ⟨w.storedFault, rfl, id⟩
  · next hwhole =>
    split
    · exact .inr ⟨w.storedFault, rfl, id⟩
    · split
      · next hroom =>
        rw [not_or, not_not] at hwhole
        exact .inl ⟨rfl, hwhole, hroom⟩
      · exact .inr ⟨_, rfl, fun _ => rfl⟩

theorem append (h : Streams settings s) {hasWriter : Bool}
    (hblock : s.block = some (.appending data hasWriter)) :
    Streams settings (s.append settings data hasWriter) := by
  have hready := h.ready_of_block hblock (by simp)
  have hheld : (s.block.map Delivery.held).getD 0 = 0 := by rw [hblock]; rfl
  unfold SittingCapture.append
  split
  · exact h.refused hready hheld s.writer.storedFault id invalidPCM
  · rcases append_cases settings s.writer data with ⟨heq, haccepted, hroom⟩ | ⟨storedFault, heq, hstored⟩
    · rw [heq]
      refine ⟨fun hnot => absurd hready hnot, ?_, hroom, h.thread, h.kept, h.queue, ?_, ?_⟩
      · have hpending := h.pending
        rw [hheld] at hpending
        simp only [hpending, Option.map_some, Option.getD_some, Delivery.held, Nat.add_zero]
      · rintro delivery ⟨rfl⟩
        exact haccepted
      · refine h.exact.imp (fun hlost => lost_goesOn hlost hblock (by simp) id id rfl) fun hexact =>
          ⟨?_, hexact.frames⟩
        rw [← hexact.bytes]
        simp only [waiting, hblock, Option.map_some, Delivery.waiting]
    · rw [heq]
      exact h.refused hready hheld storedFault hstored streamOverflow

/-- A callback that holds no bytes goes on without any. -/
theorem emptyHanded (h : Streams settings s) (hblock : s.block = some delivery)
    (hwaiting : delivery.waiting = []) (hheld : delivery.held = 0)
    (storedFault : Option MeetingCaptureFault) (jobs : List Job) (next : Option Recording)
    (hnext : next.isSome = true → Note.ready ∈ s.log)
    (hlost : Lost s → Lost { s with storedFault, jobs, block := next.map .recording }) :
    Streams settings { s with storedFault, jobs, block := next.map .recording } where
  unopened hready := by
    refine ⟨(h.unopened hready).1, (h.unopened hready).2.1, .inl ?_⟩
    cases next with
    | none => rfl
    | some => exact absurd (hnext rfl) hready
  pending := by
    have hpending := h.pending
    simp only [hblock, Option.map_some, Option.getD_some, hheld] at hpending
    cases next <;> exact hpending
  bound := h.bound
  thread := h.thread
  kept := h.kept
  queue := h.queue
  block := by
    cases next with
    | none => rintro _ ⟨⟩
    | some =>
      rintro _ ⟨rfl⟩
      trivial
  exact := by
    refine h.exact.imp hlost fun hexact => ⟨?_, hexact.frames⟩
    have hbytes := hexact.bytes
    simp only [waiting, hblock, Option.map_some, Option.getD_some, hwaiting, List.append_nil] at hbytes
    cases next <;> simpa [waiting, Delivery.waiting] using hbytes

theorem deliver (h : Streams settings s) (hphase : Phase s) : Streams settings (s.deliver settings) := by
  unfold SittingCapture.deliver
  cases hblock : s.block with
  | none => exact h
  | some delivery =>
    cases delivery with
    | arming =>
      exact h.emptyHanded hblock rfl rfl s.storedFault _ none (by simp) fun hlost =>
        lost_goesOn hlost hblock (by simp) id id rfl
    | appending => exact h.append hblock
    | enqueuing data =>
      have haccepted : Accepted data := h.block _ hblock
      refine ⟨fun hnot => absurd (h.ready_of_block hblock (by simp)) hnot, ?_, h.bound, h.thread,
        h.kept, ?_, by rintro _ ⟨⟩, ?_⟩
      · have hpending := h.pending
        simp only [hblock, Option.map_some, Option.getD_some, Delivery.held] at hpending
        simp [hpending, Nat.add_assoc]
      · intro other hother
        rcases List.mem_append.1 hother with hold | hnew
        · exact h.queue other hold
        · rw [List.mem_singleton.1 hnew]
          exact haccepted
      · refine h.exact.imp (fun hlost => lost_goesOn hlost hblock (by simp) id id rfl) fun hexact =>
          ⟨?_, hexact.frames⟩
        simpa [waiting, hblock, Delivery.waiting] using hexact.bytes
    | recording recording =>
      have hready := h.ready_of_block hblock (by simp)
      rcases record_cases s recording with ⟨-, hterminal⟩ | ⟨fault, rfl, -, hrecord⟩ |
        ⟨fault, rfl, hrecord⟩
      · exact absurd hblock (by simp [hphase.block_of_terminal hterminal])
      · simp only [hrecord]
        exact h.emptyHanded hblock rfl rfl _ s.jobs _ (fun _ => hready) fun _ =>
          .inl (by cases s.storedFault <;> rfl)
      · simp only [hrecord]
        exact h.emptyHanded hblock rfl rfl s.storedFault _ none (by simp) fun hlost =>
          lost_goesOn hlost hblock (by simp) id id rfl

/-! ### The queue of the writer -/

/-- What the queue of the writer works on came after readiness. -/
theorem ready_of_writer (h : Streams settings s)
    (hbusy : ¬ (s.writer.queue = [] ∧ s.writer.thread = .idle)) : Note.ready ∈ s.log := by
  by_contra hready
  exact hbusy (h.unopened hready).1

theorem lost_of_writer (h : Lost s) (hstored : s.storedFault.isSome = true → t.storedFault.isSome = true)
    (hwriter : s.writer.storedFault.isSome = true → t.writer.storedFault.isSome = true)
    (hblock : t.block = s.block)
    (hthread : ∀ data alreadyFailed fault,
      s.writer.thread = .settling data alreadyFailed (some fault) → Lost t) : Lost t := by
  rcases h with hstored' | hwriter' | hfault | ⟨data, alreadyFailed, fault, hsettling⟩
  · exact .inl (hstored hstored')
  · exact .inr (.inl (hwriter hwriter'))
  · exact .inr (.inr (.inl (by rw [hblock]; exact hfault)))
  · exact hthread data alreadyFailed fault hsettling

/-- A job of the writer begins. -/
theorem begun (h : Streams settings s) {rest : List Bytes} (hthread : s.writer.thread = .idle)
    (hqueue : s.writer.queue = data :: rest) (deadline : Nat) : Streams settings { s with
      writer := { s.writer with
        queue := rest
        thread := if s.writer.storedFault.isSome then .settling data true none
          else whileUnwritten data 0 deadline } } := by
  have hready : Note.ready ∈ s.log := h.ready_of_writer fun hidle => by
    simp [hidle.1] at hqueue
  have heven : data.length % 2 = 0 := (h.queue data (by simp [hqueue])).2
  have hpending := h.pending
  rw [hthread, hqueue] at hpending
  refine ⟨fun hnot => absurd hready hnot, ?_, h.bound, ?_, ?_, fun other hother =>
    h.queue other (by simp [hqueue, hother]), h.block, ?_⟩
  · by_cases hfailed : s.writer.storedFault.isSome = true
    · simp only [hpending, if_pos hfailed, Writing.held, List.flatten_cons, List.length_append]
      omega
    · simp only [hpending, if_neg hfailed, List.flatten_cons, List.length_append]
      rw [whileUnwritten_held]
      simp only [Writing.held]
      omega
  · dsimp only
    split
    · exact heven
    · exact whileUnwritten_whole heven (Nat.zero_le _) deadline
  · dsimp only
    split
    · next hfailed => exact hfailed
    · exact whileUnwritten_kept data 0 deadline _
  · by_cases hfailed : s.writer.storedFault.isSome = true
    · exact .inl (.inr (.inl hfailed))
    · refine h.exact.imp (fun (hlost : Lost s) => lost_of_writer hlost id id rfl fun _ _ _ hsettling => ?_)
        fun hexact => ⟨?_, ?_⟩
      · simp [hthread] at hsettling
      · have hbytes := hexact.bytes
        rw [waiting, hthread, hqueue] at hbytes
        simp only [waiting, if_neg hfailed]
        rw [whileUnwritten_unwritten, List.drop_zero, ← hbytes]
        rfl
      · have hframes := hexact.frames
        rw [hthread] at hframes
        simp only [if_neg hfailed]
        rw [whileUnwritten_uncounted (Nat.zero_le _)]
        exact hframes

/-- A write that ends the job with a fault. -/
theorem faulted (h : Streams settings s)
    (hthread : s.writer.thread = .writing data written deadline) (fault : MeetingCaptureFault) :
    Streams settings (s.onThread (.settling data false (some fault))) where
  unopened hnot := absurd (h.ready_of_writer fun hidle => by
    simp [hidle.2] at hthread) hnot
  pending := by
    have hpending := h.pending
    rw [hthread] at hpending
    exact hpending
  bound := h.bound
  thread := by
    have hwhole := h.thread
    rw [hthread] at hwhole
    exact hwhole.1
  kept := trivial
  queue := h.queue
  block := h.block
  exact := .inl (.inr (.inr (.inr ⟨data, false, fault, rfl⟩)))

theorem wrote (h : Streams settings s) {count : Nat}
    (hthread : s.writer.thread = .writing data written deadline)
    (hcount : written + count ≤ data.length) (room : Nat) :
    Streams settings { s.onThread (whileUnwritten data (written + count) deadline) with
      pipe := s.pipe ++ (data.drop written).take count
      room } := by
  have hready : Note.ready ∈ s.log := h.ready_of_writer fun hidle => by
    simp [hidle.2] at hthread
  have hpending := h.pending
  have hwhole := h.thread
  rw [hthread] at hpending hwhole
  refine ⟨fun hnot => absurd hready hnot, ?_, h.bound, whileUnwritten_whole hwhole.1 hcount deadline,
    whileUnwritten_kept _ _ _ _, h.queue, h.block, ?_⟩
  · simp only [onThread]
    rw [whileUnwritten_held]
    exact hpending
  · refine h.exact.imp (fun (hlost : Lost s) => lost_of_writer hlost id id rfl fun _ _ _ hsettling => ?_)
      fun hexact => ⟨?_, ?_⟩
    · simp [hthread] at hsettling
    · have hbytes := hexact.bytes
      rw [waiting, hthread] at hbytes
      simp only [waiting, onThread]
      rw [whileUnwritten_unwritten, ← List.drop_drop, ← hbytes]
      simp only [Writing.unwritten, List.append_assoc]
      rw [← List.append_assoc (List.take count _), List.take_append_drop]
    · have hframes := hexact.frames
      rw [hthread] at hframes
      simp only [Writing.uncounted] at hframes
      simp only [onThread, List.length_append, List.length_take, List.length_drop]
      rw [whileUnwritten_uncounted hcount]
      omega

theorem writeWholeBlock (h : Streams settings s)
    (hthread : s.writer.thread = .writing data written deadline) (outcome : WriteOutcome) :
    Streams settings (s.writeWholeBlock settings data written deadline outcome) := by
  cases outcome with
  | wrote =>
    simp only [SittingCapture.writeWholeBlock]
    split
    · next hcount => exact h.wrote hthread hcount.2.1 _
    · exact h
  | interrupted => exact h
  | wouldBlock pollErrno =>
    simp only [SittingCapture.writeWholeBlock]
    split
    · cases pollErrno with
      | none => exact h
      | some => exact h.faulted hthread _
    · exact h.faulted hthread _
  | failed => exact h.faulted hthread _

/-- What the section that ends a job does. -/
theorem settle_cases (w : BoundedPipeWriter) (data : Bytes) (alreadyFailed : Bool)
    (failure : Option MeetingCaptureFault) :
    let ended := { w with pendingBytes := w.pendingBytes - data.length, thread := .idle }
    (∃ fault, failure = some fault ∧ w.settle data alreadyFailed failure =
        { ended with storedFault := some fault, thread := .reporting (.storing fault) }) ∨
      (w.settle data alreadyFailed failure = ended ∧
        (w.storedFault.isSome = true ∨ alreadyFailed = true)) ∨
      failure = none ∧ alreadyFailed = false ∧
        w.settle data alreadyFailed failure = { ended with frames := w.frames + data.length / 2 } := by
  cases failure with
  | none =>
    cases alreadyFailed with
    | false => exact .inr (.inr ⟨rfl, rfl, by simp [BoundedPipeWriter.settle]⟩)
    | true => exact .inr (.inl ⟨by simp [BoundedPipeWriter.settle], .inr rfl⟩)
  | some fault =>
    cases hstored : w.storedFault with
    | none => exact .inl ⟨fault, rfl, by simp [BoundedPipeWriter.settle, hstored]⟩
    | some => exact .inr (.inl ⟨by simp [BoundedPipeWriter.settle, hstored], .inl rfl⟩)

theorem settle (h : Streams settings s) {alreadyFailed : Bool}
    {failure : Option MeetingCaptureFault}
    (hthread : s.writer.thread = .settling data alreadyFailed failure) :
    Streams settings { s with writer := s.writer.settle data alreadyFailed failure } := by
  have hready : Note.ready ∈ s.log := h.ready_of_writer fun hidle => by
    simp [hidle.2] at hthread
  have hpending : s.writer.pendingBytes - data.length =
      s.writer.queue.flatten.length + (s.block.map Delivery.held).getD 0 := by
    have hpending := h.pending
    rw [hthread] at hpending
    simp only [Writing.held] at hpending
    omega
  have hbound : s.writer.pendingBytes - data.length ≤ settings.maxPendingBytes :=
    Nat.le_trans (Nat.sub_le _ _) h.bound
  rcases settle_cases s.writer data alreadyFailed failure with ⟨fault, -, heq⟩ | ⟨heq, hfailed⟩ |
    ⟨rfl, rfl, heq⟩
  · rw [heq]
    exact ⟨fun hnot => absurd hready hnot, by simpa [Writing.held] using hpending, hbound, trivial, rfl,
      h.queue, h.block, .inl (.inr (.inl rfl))⟩
  · rw [heq]
    refine ⟨fun hnot => absurd hready hnot, by simpa [Writing.held] using hpending, hbound, trivial,
      trivial, h.queue, h.block, .inl (.inr (.inl ?_))⟩
    rcases hfailed with hstored | rfl
    · exact hstored
    · have hkept := h.kept
      rw [hthread] at hkept
      exact hkept
  · rw [heq]
    refine ⟨fun hnot => absurd hready hnot, by simpa [Writing.held] using hpending, hbound, trivial,
      trivial, h.queue, h.block, ?_⟩
    refine h.exact.imp (fun (hlost : Lost s) => lost_of_writer hlost id id rfl fun _ _ _ hsettling => ?_)
      fun hexact => ⟨?_, ?_⟩
    · simp [hthread] at hsettling
    · simpa [waiting, hthread, Writing.unwritten] using hexact.bytes
    · have hframes := hexact.frames
      have hwhole := h.thread
      rw [hthread] at hframes hwhole
      simp only [Writing.uncounted, Writing.Whole] at hframes hwhole ⊢
      omega

/-- The report of a fault goes on. -/
theorem reported (h : Streams settings s) {recording : Recording}
    (hthread : s.writer.thread = .reporting recording) (storedFault : Option MeetingCaptureFault)
    (jobs : List Job) (next : Writing) (hidle : next = .idle ∨ ∃ recording, next = .reporting recording) :
    Streams settings ({ s with storedFault, jobs }.onThread next) := by
  have hready : Note.ready ∈ s.log := h.ready_of_writer fun hidle => by
    simp [hidle.2] at hthread
  have hpending := h.pending
  have hkept := h.kept
  rw [hthread] at hpending hkept
  refine ⟨fun hnot => absurd hready hnot, ?_, h.bound, ?_, ?_, h.queue, h.block, .inl (.inr (.inl hkept))⟩
  · rcases hidle with rfl | ⟨_, rfl⟩ <;> exact hpending
  · rcases hidle with rfl | ⟨_, rfl⟩ <;> trivial
  · rcases hidle with rfl | ⟨_, rfl⟩
    · trivial
    · exact hkept

theorem write (h : Streams settings s) (outcome : WriteOutcome) :
    Streams settings (s.write settings outcome) := by
  cases hthread : s.writer.thread with
  | idle =>
    unfold SittingCapture.write
    rw [hthread]
    cases hqueue : s.writer.queue with
    | nil => exact h
    | cons => exact h.begun hthread hqueue (s.now + settings.writeStall)
  | writing =>
    unfold SittingCapture.write
    rw [hthread]
    exact h.writeWholeBlock hthread outcome
  | settling =>
    unfold SittingCapture.write
    rw [hthread]
    exact h.settle hthread
  | reporting recording =>
    rw [write_of_reporting settings hthread]
    obtain ⟨storedFault, jobs, hrecord, -⟩ := record_same s recording
    rw [hrecord]
    apply h.reported hthread storedFault jobs _
    cases (s.record recording).2 with
    | none => exact .inl rfl
    | some next => exact .inr ⟨next, rfl⟩

/-! ### The control queue -/

/-- The `finish` of the writer marks it closing and closed. -/
theorem marked (h : Streams settings s) (closing closed : Bool) (control : Control) :
    Streams settings { s with writer := { s.writer with closing, closed }, control } where
  unopened := h.unopened
  pending := h.pending
  bound := h.bound
  thread := h.thread
  kept := h.kept
  queue := h.queue
  block := h.block
  exact := h.exact.imp id fun hexact => ⟨hexact.bytes, hexact.frames⟩

theorem stopped (h : Streams settings s) (stopDraining : Bool) (control : Control) :
    Streams settings { s with stopDraining, control, log := s.log ++ [.stopped] } where
  unopened hready := h.unopened (by simpa using hready)
  pending := h.pending
  bound := h.bound
  thread := h.thread
  kept := h.kept
  queue := h.queue
  block := h.block
  exact := h.exact.imp id fun hexact =>
    ⟨by rw [streamed_append_stopped, ← hexact.bytes]; rfl, hexact.frames⟩

theorem readied (h : Streams settings s) (hready : Note.ready ∉ s.log) (jobs : List Job)
    (state : MeetingCaptureState) (control : Control) :
    Streams settings { s with
      jobs, state, control, writer := .opened, hasWriter := true, log := s.log ++ [.ready] } := by
  obtain ⟨-, hpipe, hblock⟩ := h.unopened hready
  have hwaits : (s.block.map Delivery.waiting).getD [] = [] := by
    rcases hblock with hblock | hblock <;> rw [hblock] <;> rfl
  have hheld : (s.block.map Delivery.held).getD 0 = 0 := by
    rcases hblock with hblock | hblock <;> rw [hblock] <;> rfl
  refine ⟨fun hnot => absurd (by simp) hnot, ?_, Nat.zero_le _, trivial, trivial, ?_, h.block,
    .inr ⟨?_, ?_⟩⟩
  · simp only [hheld]
    rfl
  · simp [BoundedPipeWriter.opened]
  · simp only [waiting, hwaits, hpipe, streamed_append_ready hready]
    rfl
  · simp only [hpipe]
    rfl

theorem advance (h : Streams settings s) (hphase : Phase s) (hsection : Section s t) :
    Streams settings t := by
  cases hsection with
  | waits => exact h
  | readies rest _ _ state => exact h.readied (hphase.not_ready_of_arming state) rest _ _
  | stops => exact h.stopped _ _
  | drains => exact h.marked true s.writer.closed _
  | flushes => exact h.marked s.writer.closing true _
  | passes | activates | finishes | announces | decides | settles | closes | emits =>
    exact h.same rfl rfl rfl rfl rfl

theorem step (h : Streams settings s) (hphase : Phase s) (k : Step) :
    Streams settings (step settings s k) := by
  cases k with
  | activate | stop | interrupt | abort => exact h.same rfl rfl rfl rfl rfl
  | advance answers => exact h.advance hphase (advance_section s answers)
  | receive data =>
    dsimp only [SittingCapture.step]
    split
    · next hfree => exact h.receive hphase data hfree.1 (by simpa using hfree.2)
    · exact h
  | sourceFault fault =>
    dsimp only [SittingCapture.step]
    split
    · obtain ⟨faults, heq⟩ := recordSource_same s fault
      rw [heq]
      exact h.same rfl rfl rfl rfl rfl
    · exact h
  | silence =>
    dsimp only [SittingCapture.step]
    split
    · exact h.same rfl rfl rfl rfl rfl
    · exact h
  | deliver => exact h.deliver hphase
  | recordFault index =>
    obtain ⟨storedFault, jobs, faults, heq, -, hstored, -⟩ := recordFault_same s index
    dsimp only [SittingCapture.step]
    rw [heq]
    exact h.storing storedFault hstored jobs faults
  | write outcome => exact h.write outcome
  | tick | drain => exact h.same rfl rfl rfl rfl rfl

end Streams

end YawnApp.Capture.SittingCapture
