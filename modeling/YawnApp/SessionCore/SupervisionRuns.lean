import YawnApp.SessionCore.RequestFlow

set_option autoImplicit false

/-!
# Runs of a supervised worker

The dispatcher of the code does what `RequestFlow.Next` allows, and a call is in
the phase that its place in the code says.  Both are kept by every step of every
thread, so what the log promises holds in every run, however the threads are
scheduled and whatever the worker writes.
-/

namespace YawnApp.SessionCore

open YawnApp.Foundation SupervisionEvent DispatcherPc

/-! ## The tracker -/

section Tracker

variable (self : RequestTracker)

/-- The request that is pending. -/
def RequestTracker.pendingId : Option Uuid := self.pending.map PendingRequest.requestId

theorem RequestTracker.pendingId_of_some {pending : PendingRequest} (h : self.pending = some pending) :
    self.pendingId = some pending.requestId := by
  unfold pendingId
  rw [h]
  rfl

/-- What comes of a frame. -/
inductive Admits (output : WorkerOutput) :
    Except ProtocolError (Option Dispatched) → RequestTracker → Prop
  | refused (e : ProtocolError) : Admits output (.error e) self
  | ignored : Admits output (.ok none) self
  | accepted {dispatched : Dispatched} {tracker : RequestTracker}
      (hpending : self.pendingId = some output.requestId) (hyields : output.Yields dispatched)
      (hnext : (∃ final, dispatched = .result final) ∧ tracker.pendingId = none ∨
        (∀ final, dispatched ≠ .result final) ∧ tracker.pendingId = self.pendingId) :
    Admits output (.ok (some dispatched)) tracker

/-- A measurement is the two amounts of its frame. -/
theorem RequestTracker.transcriptionProgress_amounts {frame : WorkerTranscriptionProgress}
    {m : TranscriptionProgress} (h : (self.transcriptionProgress frame).1 = some m) :
    measuredAmount frame.audioSecondsDone = some m.audioSecondsDone ∧
      measuredAmount frame.audioSecondsTotal = some m.audioSecondsTotal := by
  unfold transcriptionProgress at h
  split at h
  · cases h
  · split at h
    · cases h
    · split at h
      · rename_i done total hdone htotal
        split at h
        · cases h
        · split at h
          · cases h
          · cases h
            exact ⟨hdone, htotal⟩
      · cases h

theorem RequestTracker.admitOutput_admits (output : WorkerOutput) :
    Admits self output (self.admitOutput output).1 (self.admitOutput output).2 := by
  cases output with
  | progress frame =>
    have h : Handles self (.progress frame) (.ofResult (self.progress frame).1)
        (self.progress frame).2 := self.progress_handles frame
    change Admits self _ ((self.progress frame).1.map fun _ => some (.progress frame))
      (self.progress frame).2
    generalize self.progress frame = answered at h ⊢
    obtain ⟨answer, tracker⟩ := answered
    cases answer with
    | error e =>
      cases h with
      | refused => exact .refused e
    | ok _ =>
      cases h with
      | recording hpending hid =>
        refine .accepted ?_ rfl (.inr ⟨by simp, ?_⟩)
        · rw [self.pendingId_of_some hpending, hid]
          rfl
        · rw [self.pendingId_of_some hpending]
          rfl
      | heartbeat hpending hid =>
        refine .accepted ?_ rfl (.inr ⟨by simp, rfl⟩)
        rw [RequestTracker.pendingId_of_some _ hpending, hid]
        rfl
  | transcriptionProgress frame =>
    have h : Handles self (.transcriptionProgress frame)
        (.ofMeasurement (self.transcriptionProgress frame).1) (self.transcriptionProgress frame).2 :=
      self.transcriptionProgress_handles frame
    have hamounts := fun m => @self.transcriptionProgress_amounts frame m
    change Admits self _ (.ok ((self.transcriptionProgress frame).1.map .measured))
      (self.transcriptionProgress frame).2
    generalize self.transcriptionProgress frame = answered at h hamounts ⊢
    obtain ⟨answer, tracker⟩ := answered
    cases answer with
    | none =>
      cases h with
      | ignored => exact .ignored
    | some m =>
      obtain ⟨hdone, htotal⟩ := hamounts m rfl
      cases h with
      | measured hpending hid =>
        refine .accepted ?_ ⟨rfl, hdone, htotal⟩ (.inr ⟨by simp, ?_⟩)
        · rw [self.pendingId_of_some hpending, hid]
          rfl
        · rw [self.pendingId_of_some hpending]
          rfl
  | result final =>
    have h : Handles self (.terminal final) (.ofResult (self.terminal final).1)
        (self.terminal final).2 := self.terminal_handles final
    change Admits self _ ((self.terminal final).1.map fun _ => some (.result final))
      (self.terminal final).2
    generalize self.terminal final = answered at h ⊢
    obtain ⟨answer, tracker⟩ := answered
    cases answer with
    | error e =>
      cases h with
      | refused => exact .refused e
    | ok _ =>
      cases h with
      | finished hpending hid =>
        refine .accepted ?_ rfl (.inl ⟨⟨final, rfl⟩, rfl⟩)
        rw [self.pendingId_of_some hpending, hid]
        rfl

/-- A request is registered, or the tracker stays as it is. -/
theorem RequestTracker.register_cases (command : WorkerCommand) :
    (∃ e, self.register command = (.error e, self)) ∨
      (self.register command).1 = .ok () ∧
        (self.register command).2.pendingId = some command.requestId := by
  unfold register
  split
  · exact .inl ⟨_, rfl⟩
  · split
    · exact .inl ⟨_, rfl⟩
    · split
      · exact .inl ⟨_, rfl⟩
      · exact .inr ⟨rfl, rfl⟩

/-- A request that is given up is not pending. -/
theorem RequestTracker.cancel_pendingId {id : Uuid} (h : ∀ p, self.pendingId = some p → p = id) :
    (self.cancel id).pendingId = none := by
  unfold cancel
  cases hpending : self.pending with
  | none =>
    rw [Option.any_none, if_neg Bool.false_ne_true]
    unfold pendingId
    rw [hpending]
    rfl
  | some =>
    have hid := h _ (self.pendingId_of_some hpending)
    rw [Option.any_some, if_pos (decide_eq_true hid)]
    rfl

end Tracker

/-! ## The dispatcher -/

namespace DispatcherPc

/-- The output that is about to be sent. -/
def inHand : DispatcherPc → List Dispatched
  | .sending item => [item.output]
  | _ => []

/-- No frame is read any more. -/
def halted : DispatcherPc → Bool
  | .ended | .faulting _ | .cleaning | .done => true
  | _ => false

/-- The output of the frame read last, before the tracker is asked. -/
def output? : DispatcherPc → Option WorkerOutput
  | .parsed output => some output
  | .stamped _ output => some output
  | _ => none

end DispatcherPc

namespace OwnedChild

def flow (self : OwnedChild) : RequestFlow where
  pending := self.requests.pendingId
  queued := self.queue.map DispatchItem.output
  inHand := self.dispatcher.pc.inHand
  halted := self.dispatcher.pc.halted
  log := self.log

/-- What the dispatcher has read is what the bytes of its reader say. -/
structure Reading (text : WorkerText) (reader : FrameReader) (worker : OwnedChild) : Prop where
  ends : worker.dispatcher.reader.ends = reader.ends
  reads : readsIn worker.log <+: readsOf reader.ends reader.bytes
  rest : worker.dispatcher.pc.halted = false →
    readsIn worker.log ++ readsOf reader.ends worker.dispatcher.reader.bytes =
      readsOf reader.ends reader.bytes
  parsed : ∀ output, worker.dispatcher.pc.output? = some output →
    FromLastFrame text worker.log output
  large : .error .frameTooLarge ∈ readsIn worker.log →
    worker.dispatcher.pc = .faulting (.protocol .frameTooLarge) ∨ worker.fault.isSome

variable {text : WorkerText} {reader : FrameReader} {self : OwnedChild} {call : Call}
  {since : SupervisionLog} {output : WorkerOutput} {item : DispatchItem}

/-- What the dispatcher leaves to the other threads. -/
structure DispatcherKeeps (before after : OwnedChild) : Prop where
  pc : after.pc = before.pc
  stopped : after.stopped = before.stopped
  cleanup : after.cleanup = before.cleanup
  outputReceiver : after.outputReceiver = before.outputReceiver
  fault : before.fault.isSome → after.fault.isSome

/-- Each step of the dispatcher is one that the flow allows. -/
theorem readFrame_next (hpc : self.dispatcher.pc = .reading) :
    self.flow.Next text (self.readFrame text).flow ∧ DispatcherKeeps self (self.readFrame text) := by
  have hhalted : self.flow.halted = false := congrArg halted hpc
  have hinHand : self.flow.inHand = [] := congrArg inHand hpc
  unfold readFrame
  dsimp only
  split
  · exact ⟨.read _ true hhalted hinHand, rfl, rfl, rfl, rfl, fun h => h⟩
  · exact ⟨.read _ true hhalted hinHand, rfl, rfl, rfl, rfl, fun h => h⟩
  · split
    · exact ⟨.read _ true hhalted hinHand, rfl, rfl, rfl, rfl, fun h => h⟩
    · split
      · exact ⟨.read _ true hhalted hinHand, rfl, rfl, rfl, rfl, fun h => h⟩
      · exact ⟨.read _ false hhalted hinHand, rfl, rfl, rfl, rfl, fun h => h⟩

theorem stampFrame_next (hpc : self.dispatcher.pc = .parsed output) :
    self.flow.Next text (self.stampFrame output).flow ∧
      DispatcherKeeps self (self.stampFrame output) := by
  have hhalted : self.flow.halted = false := congrArg halted hpc
  have hinHand : self.flow.inHand = [] := congrArg inHand hpc
  have hmoved : ∀ halted, self.flow.Next text { self.flow with inHand := [], halted := halted } :=
    fun halted => .moved halted (fun h => absurd h (by rw [hhalted]; exact Bool.false_ne_true)) hinHand
  unfold stampFrame
  dsimp only
  split
  · exact ⟨hmoved false, rfl, rfl, rfl, rfl, fun h => h⟩
  · generalize (if second ≤ self.clock - self.dispatcher.progressWindow then 1
      else self.dispatcher.progressEvents + 1) = events
    by_cases hrate : maxProgressEventsPerSecond < events
    · rw [if_pos hrate]
      exact ⟨hmoved true, rfl, rfl, rfl, rfl, fun h => h⟩
    · rw [if_neg hrate]
      exact ⟨hmoved false, rfl, rfl, rfl, rfl, fun h => h⟩

theorem admitFrame_next {receivedAt : Nat} (hpc : self.dispatcher.pc = .stamped receivedAt output)
    (hfrom : FromLastFrame text self.log output) :
    self.flow.Next text (self.admitFrame receivedAt output).flow ∧
      DispatcherKeeps self (self.admitFrame receivedAt output) := by
  have hhalted : self.flow.halted = false := congrArg halted hpc
  have hinHand : self.flow.inHand = [] := congrArg inHand hpc
  have hadmits := self.requests.admitOutput_admits output
  unfold admitFrame
  dsimp only
  generalize self.requests.admitOutput output = admitted at hadmits ⊢
  obtain ⟨answer, tracker⟩ := admitted
  cases hadmits with
  | refused => exact ⟨.moved true (fun _ => rfl) hinHand, rfl, rfl, rfl, rfl, fun h => h⟩
  | ignored =>
    refine ⟨.moved false (fun h => ?_) hinHand, rfl, rfl, rfl, rfl, fun h => h⟩
    rw [hhalted] at h
    exact h
  | accepted hpending hyields hnext =>
    exact ⟨.accepted _ hhalted hinHand hpending hyields hfrom hnext, rfl, rfl, rfl, rfl, fun h => h⟩

theorem sendItem_next (hpc : self.dispatcher.pc = .sending item) :
    self.flow.Next text (self.sendItem item).flow ∧ DispatcherKeeps self (self.sendItem item) := by
  have hhalted : self.flow.halted = false := congrArg halted hpc
  have hinHand : self.flow.inHand = [item.output] := congrArg inHand hpc
  unfold sendItem
  split
  · exact ⟨.dropped, rfl, rfl, rfl, rfl, fun h => h⟩
  · split
    · exact ⟨.dropped, rfl, rfl, rfl, rfl, fun h => h⟩
    · refine ⟨?_, rfl, rfl, rfl, rfl, fun h => h⟩
      have hsent := @RequestFlow.Next.sent text _ _ hhalted hinHand
      have hqueued : self.flow.queued ++ [item.output] =
          (self.queue ++ [item]).map DispatchItem.output := by
        rw [List.map_append]
        rfl
      rw [hqueued] at hsent
      exact hsent

theorem isSome_recordFault (fault : WorkerFault) : (self.recordFault fault).fault.isSome := by
  unfold recordFault
  split
  · assumption
  · rfl

/-- Of a worker the record of a fault changes the fault only. -/
theorem recordFault_eq (fault : WorkerFault) :
    self.recordFault fault = { self with fault := (self.recordFault fault).fault } := by
  unfold recordFault
  split <;> rfl

theorem dispatcherStep_next (h : Reading text reader self) :
    self.flow.Next text (self.dispatcherStep text).flow ∧
      DispatcherKeeps self (self.dispatcherStep text) := by
  unfold dispatcherStep
  cases hpc : self.dispatcher.pc with
  | reading => exact readFrame_next hpc
  | parsed => exact stampFrame_next hpc
  | stamped receivedAt output => exact admitFrame_next hpc (h.parsed output (by rw [hpc]; rfl))
  | sending => exact sendItem_next hpc
  | ended =>
    have hinHand : self.flow.inHand = [] := congrArg inHand hpc
    dsimp only
    split
    · exact ⟨.moved true (fun _ => rfl) hinHand, rfl, rfl, rfl, rfl, fun h => h⟩
    · exact ⟨.moved true (fun _ => rfl) hinHand, rfl, rfl, rfl, rfl, fun h => h⟩
  | faulting =>
    have hinHand : self.flow.inHand = [] := congrArg inHand hpc
    unfold recordFault
    dsimp only
    split
    · exact ⟨.moved true (fun _ => rfl) hinHand, rfl, rfl, rfl, rfl, fun h => h⟩
    · exact ⟨.moved true (fun _ => rfl) hinHand, rfl, rfl, rfl, rfl, fun _ => rfl⟩
  | cleaning =>
    have hinHand : self.flow.inHand = [] := congrArg inHand hpc
    exact ⟨.moved true (fun _ => rfl) hinHand, rfl, rfl, rfl, rfl, fun h => h⟩
  | done =>
    have hinHand : self.flow.inHand = [] := congrArg inHand hpc
    have hsame : self.flow = { self.flow with inHand := [], halted := true } := by
      unfold flow
      rw [hpc]
      rfl
    refine ⟨?_, rfl, rfl, rfl, rfl, fun h => h⟩
    have hmoved := @RequestFlow.Next.moved text _ true (fun _ => rfl) hinHand
    rw [← hsame] at hmoved
    exact hmoved

/-! ### What is read -/

theorem Reading.readFrame (h : Reading text reader self) (hpc : self.dispatcher.pc = .reading) :
    Reading text reader (self.readFrame text) := by
  have htakes := readBoundedFrame_takes self.dispatcher.reader
  have hrest := h.rest (congrArg halted hpc)
  have hfault : .error .frameTooLarge ∈ readsIn self.log → self.fault.isSome := fun hmem =>
    (h.large hmem).resolve_left fun hfaulting => by cases hpc.symm.trans hfaulting
  rw [h.ends] at htakes
  unfold OwnedChild.readFrame
  dsimp only
  generalize hread : readBoundedFrame self.dispatcher.reader = read at htakes
  have hends : read.2.ends = reader.ends := by
    rw [← hread]
    exact h.ends
  obtain ⟨outcome, later⟩ := read
  have hreads : readsIn (self.log ++ [.read outcome]) = readsIn self.log ++ [outcome] :=
    readsIn_concat self.log _
  -- the results so far when this one is the last
  have hlast : (∀ frame, outcome = .ok frame → frame = []) →
      readsIn (self.log ++ [.read outcome]) <+: readsOf reader.ends reader.bytes := fun hnone =>
    ⟨[], by rw [List.append_nil, hreads, ← hrest, htakes.readsOf_last hnone]⟩
  cases outcome with
  | error e =>
    have hfront := hlast fun _ heq => by cases heq
    cases e with
    | frameTooLarge =>
      refine ⟨hends, hfront, ?_, ?_, fun _ => .inl rfl⟩
      · intro hhalted
        cases hhalted
      · intro output houtput
        cases houtput
    | failed =>
      refine ⟨hends, hfront, ?_, ?_, fun hmem => .inr (hfault ?_)⟩
      · intro hhalted
        cases hhalted
      · intro output houtput
        cases houtput
      · change .error .frameTooLarge ∈ readsIn (self.log ++ [.read (.error .failed)]) at hmem
        rw [hreads] at hmem
        simpa using hmem
  | ok frame =>
    have hold : .error .frameTooLarge ∈ readsIn (self.log ++ [.read (.ok frame)]) →
        self.fault.isSome := fun hmem => by
      rw [hreads] at hmem
      exact hfault (by simpa using hmem)
    dsimp only
    split
    · rename_i hempty
      refine ⟨hends, hlast fun _ heq => ?_, ?_, ?_, fun hmem => .inr (hold hmem)⟩
      · cases heq
        exact hempty
      · intro hhalted
        cases hhalted
      · intro output houtput
        cases houtput
    · rename_i hframe
      have htotal : readsIn (self.log ++ [.read (.ok frame)]) ++ readsOf reader.ends later.bytes =
          readsOf reader.ends reader.bytes := by
        rw [hreads, ← hrest, htakes.readsOf_frame hframe, List.append_assoc]
        rfl
      have hfront : readsIn (self.log ++ [.read (.ok frame)]) <+: readsOf reader.ends reader.bytes :=
        ⟨_, htotal⟩
      split
      · refine ⟨hends, hfront, ?_, ?_, fun hmem => .inr (hold hmem)⟩
        · intro hhalted
          cases hhalted
        · intro output houtput
          cases houtput
      · rename_i output hparse
        refine ⟨hends, hfront, fun _ => htotal, ?_, fun hmem => .inr (hold hmem)⟩
        intro found hfound
        cases hfound
        exact ⟨frame, [], lastSection_concat_of_opens trivial, hparse, rfl⟩

/-- A step that reads nothing. -/
theorem Reading.moved {after : OwnedChild} (h : Reading text reader self)
    (hreader : after.dispatcher.reader = self.dispatcher.reader)
    (hreads : readsIn after.log = readsIn self.log)
    (hhalted : after.dispatcher.pc.halted = false → self.dispatcher.pc.halted = false)
    (hparsed : ∀ output, after.dispatcher.pc.output? = some output →
      FromLastFrame text after.log output)
    (hlarge : self.dispatcher.pc = .faulting (.protocol .frameTooLarge) ∨ self.fault.isSome →
      after.dispatcher.pc = .faulting (.protocol .frameTooLarge) ∨ after.fault.isSome) :
    Reading text reader after where
  ends := by rw [hreader, h.ends]
  reads := by rw [hreads]; exact h.reads
  rest hnot := by rw [hreads, hreader]; exact h.rest (hhalted hnot)
  parsed := hparsed
  large hmem := hlarge (h.large (hreads ▸ hmem))

/-- A step of a dispatcher that will read on, and that reads nothing. -/
theorem Reading.goes {after : OwnedChild} (h : Reading text reader self)
    (hhalted : self.dispatcher.pc.halted = false)
    (hreader : after.dispatcher.reader = self.dispatcher.reader)
    (hreads : readsIn after.log = readsIn self.log) (hfault : after.fault = self.fault)
    (hparsed : ∀ output, after.dispatcher.pc.output? = some output →
      FromLastFrame text after.log output) : Reading text reader after := by
  refine h.moved hreader hreads (fun _ => hhalted) hparsed fun hlarge => .inr ?_
  rcases hlarge with hfaulting | hsome
  · rw [hfaulting] at hhalted
    cases hhalted
  · rw [hfault]
    exact hsome

theorem Reading.stampFrame (h : Reading text reader self)
    (hpc : self.dispatcher.pc = .parsed output) : Reading text reader (self.stampFrame output) := by
  have hhalted : self.dispatcher.pc.halted = false := congrArg halted hpc
  have hfrom : FromLastFrame text self.log output := h.parsed output (congrArg output? hpc)
  unfold OwnedChild.stampFrame
  dsimp only
  split
  · refine h.goes hhalted rfl rfl rfl fun found hfound => ?_
    cases hfound
    exact hfrom
  · refine h.goes hhalted rfl rfl rfl fun found hfound => ?_
    dsimp only at hfound
    generalize (if second ≤ self.clock - self.dispatcher.progressWindow then 1
      else self.dispatcher.progressEvents + 1) = events at hfound
    by_cases hrate : maxProgressEventsPerSecond < events
    · rw [if_pos hrate] at hfound
      cases hfound
    · rw [if_neg hrate] at hfound
      cases hfound
      exact hfrom

theorem Reading.admitFrame {receivedAt : Nat} (h : Reading text reader self)
    (hpc : self.dispatcher.pc = .stamped receivedAt output) :
    Reading text reader (self.admitFrame receivedAt output) := by
  have hhalted : self.dispatcher.pc.halted = false := congrArg halted hpc
  unfold OwnedChild.admitFrame
  dsimp only
  split
  · exact h.goes hhalted rfl rfl rfl fun _ hfound => by cases hfound
  · exact h.goes hhalted rfl rfl rfl fun _ hfound => by cases hfound
  · rename_i dispatched _
    refine h.goes hhalted rfl ?_ rfl fun _ hfound => by cases hfound
    exact (readsIn_concat self.log (.accepted output dispatched)).trans (List.append_nil _)

theorem Reading.sendItem (h : Reading text reader self) (hpc : self.dispatcher.pc = .sending item) :
    Reading text reader (self.sendItem item) := by
  have hhalted : self.dispatcher.pc.halted = false := congrArg halted hpc
  unfold OwnedChild.sendItem
  split
  · exact h.goes hhalted rfl rfl rfl fun _ hfound => by cases hfound
  · split
    · exact h.goes hhalted rfl rfl rfl fun _ hfound => by cases hfound
    · exact h.goes hhalted rfl rfl rfl fun _ hfound => by cases hfound

theorem Reading.dispatcherStep (h : Reading text reader self) :
    Reading text reader (self.dispatcherStep text) := by
  unfold OwnedChild.dispatcherStep
  cases hpc : self.dispatcher.pc with
  | reading => exact h.readFrame hpc
  | parsed => exact h.stampFrame hpc
  | stamped => exact h.admitFrame hpc
  | sending => exact h.sendItem hpc
  | done => exact h
  | ended =>
    dsimp only
    split
    · refine h.moved rfl rfl (fun hhalted => by cases hhalted) (fun _ hfound => by cases hfound) ?_
      exact fun hlarge => .inr (hlarge.resolve_left fun hfaulting => by cases hpc.symm.trans hfaulting)
    · refine h.moved rfl rfl (fun hhalted => by cases hhalted) (fun _ hfound => by cases hfound) ?_
      exact fun hlarge => .inr (hlarge.resolve_left fun hfaulting => by cases hpc.symm.trans hfaulting)
  | faulting fault =>
    have hsome := @isSome_recordFault self fault
    dsimp only
    rw [recordFault_eq]
    split
    · exact h.moved rfl rfl (fun hhalted => by cases hhalted) (fun _ hfound => by cases hfound)
        fun _ => .inr hsome
    · exact h.moved rfl rfl (fun hhalted => by cases hhalted) (fun _ hfound => by cases hfound)
        fun _ => .inr hsome
  | cleaning =>
    refine h.moved rfl rfl (fun hhalted => by cases hhalted) (fun _ hfound => by cases hfound) ?_
    exact fun hlarge => .inr (hlarge.resolve_left fun hfaulting => by cases hpc.symm.trans hfaulting)

/-! ## The other threads -/

/-- What the others leave to the dispatcher. -/
structure OthersKeep (before after : OwnedChild) : Prop where
  dispatcher : after.dispatcher = before.dispatcher
  log : after.log = before.log ∨ ∃ e, OfCaller e ∧ after.log = before.log ++ [e]
  fault : before.fault.isSome → after.fault.isSome

theorem OthersKeep.of_log {after : OwnedChild} (hdispatcher : after.dispatcher = self.dispatcher)
    (hlog : after.log = self.log) (hfault : self.fault.isSome → after.fault.isSome) :
    OthersKeep self after := ⟨hdispatcher, .inl hlog, hfault⟩

theorem Reading.keep {after : OwnedChild} (h : Reading text reader self) (hkeep : OthersKeep self after) :
    Reading text reader after := by
  have hfault : self.dispatcher.pc = .faulting (.protocol .frameTooLarge) ∨ self.fault.isSome →
      after.dispatcher.pc = .faulting (.protocol .frameTooLarge) ∨ after.fault.isSome := fun hlarge => by
    rw [hkeep.dispatcher]
    exact hlarge.imp_right hkeep.fault
  have hreader : after.dispatcher.reader = self.dispatcher.reader := by rw [hkeep.dispatcher]
  have hhalted : after.dispatcher.pc.halted = false → self.dispatcher.pc.halted = false := fun hnot => by
    rw [← hkeep.dispatcher]
    exact hnot
  rcases hkeep.log with hlog | ⟨e, he, hlog⟩
  · refine h.moved hreader (by rw [hlog]) hhalted (fun output houtput => ?_) hfault
    rw [hlog]
    rw [hkeep.dispatcher] at houtput
    exact h.parsed output houtput
  · have hreads : readsIn after.log = readsIn self.log := by
      rw [hlog, readsIn_concat, he.silent.2.1]
      exact List.append_nil _
    refine h.moved hreader hreads hhalted (fun output houtput => ?_) hfault
    rw [hlog]
    rw [hkeep.dispatcher] at houtput
    exact (h.parsed output houtput).concat he

/-! ### The phases of a call -/

/-- What a call holds that it has received. -/
def heldBy : RunningPc → List Dispatched
  | .received item => [item.output]
  | _ => []

/-- No call of the worker can succeed any more. -/
def Spent (self : OwnedChild) : Prop :=
  self.stopped = true ∨ self.cleanup.failure.isSome ∨ self.outputReceiver = false

/-- The flow is as the place of the caller says. -/
def Phase (self : OwnedChild) : Prop :=
  match self.pc with
  | .idle => self.flow.Quiet ∨ self.flow.Over ∧ self.Spent
  | .checking _ .cleanup => self.flow.Quiet ∨ self.flow.Over ∧ self.cleanup.failure.isSome
  | .checking _ _ => self.flow.Quiet
  | .running call pc => ∃ since, self.flow.Live call.command.requestId (heldBy pc) since
  | .cancelling call _ => ∃ since, self.flow.Failing call.command.requestId since
  | .stopping call _ _ => self.flow.Quiet ∨
      self.flow.pending = none ∧ ∃ since, self.flow.Failing call.command.requestId since

/-- What every step of a worker keeps. -/
structure Sound (text : WorkerText) (worker : OwnedChild) : Prop where
  entries : Entries (SafeEvent text) worker.log
  phase : worker.Phase
  failure : worker.cleanup.failure.isSome → worker.cleanup.finished = true

theorem Sound.dispatcherStep (h : Sound text self) (hreading : Reading text reader self) :
    Sound text (self.dispatcherStep text) := by
  obtain ⟨hnext, hkeeps⟩ := dispatcherStep_next hreading
  generalize self.dispatcherStep text = after at hnext hkeeps
  have hphase := h.phase
  suffices hboth : after.Phase ∧ Entries (SafeEvent text) after.log from
    ⟨hboth.2, hboth.1, by rw [hkeeps.cleanup]; exact h.failure⟩
  unfold Phase Spent at hphase ⊢
  rw [hkeeps.pc, hkeeps.stopped, hkeeps.cleanup, hkeeps.outputReceiver]
  split at hphase
  · rcases hphase with hquiet | ⟨hover, hspent⟩
    · exact (hquiet.next h.entries hnext).imp_left .inl
    · exact (hover.next h.entries hnext).imp_left fun hover => .inr ⟨hover, hspent⟩
  · rcases hphase with hquiet | ⟨hover, hfailure⟩
    · exact (hquiet.next h.entries hnext).imp_left .inl
    · exact (hover.next h.entries hnext).imp_left fun hover => .inr ⟨hover, hfailure⟩
  · exact hphase.next h.entries hnext
  · obtain ⟨since, hlive⟩ := hphase
    exact hlive.next h.entries hnext
  · obtain ⟨since, hfailing⟩ := hphase
    exact hfailing.next h.entries hnext
  · rcases hphase with hquiet | ⟨hpending, since, hfailing⟩
    · exact (hquiet.next h.entries hnext).imp_left .inl
    · refine (hfailing.next h.entries hnext).imp_left fun hfailing => .inr ⟨?_, hfailing⟩
      exact hnext.pending_none hpending

/-- A step that the flow and the caller do not see. -/
theorem Sound.keep {after : OwnedChild} (h : Sound text self) (hpc : after.pc = self.pc)
    (hflow : after.flow = self.flow) (hstopped : after.stopped = self.stopped)
    (hreceiver : after.outputReceiver = self.outputReceiver)
    (hfailure : self.cleanup.failure.isSome → after.cleanup.failure.isSome)
    (hfinished : after.cleanup.failure.isSome → after.cleanup.finished = true) :
    Sound text after := by
  have hlog : after.log = self.log := congrArg RequestFlow.log hflow
  refine ⟨hlog ▸ h.entries, ?_, hfinished⟩
  have hphase := h.phase
  unfold Phase Spent at hphase ⊢
  rw [hpc, hflow, hstopped, hreceiver]
  split at hphase
  · exact hphase.imp_right fun ⟨hover, hspent⟩ => ⟨hover, hspent.imp_right (.imp_left hfailure)⟩
  · exact hphase.imp_right fun ⟨hover, hfailed⟩ => ⟨hover, hfailure hfailed⟩
  · exact hphase
  · exact hphase
  · exact hphase
  · exact hphase

theorem Sound.stderrStep (h : Sound text self) (read : StderrRead) :
    Sound text (self.stderrStep read) ∧ OthersKeep self (self.stderrStep read) := by
  unfold OwnedChild.stderrStep
  split
  · split
    · exact ⟨h.keep rfl rfl rfl rfl (fun h => h) h.failure, .of_log rfl rfl fun h => h⟩
    · exact ⟨h, .of_log rfl rfl fun h => h⟩
    · exact ⟨h.keep rfl rfl rfl rfl (fun h => h) h.failure, .of_log rfl rfl fun h => h⟩
    · dsimp only
      split
      · exact ⟨h.keep rfl rfl rfl rfl (fun h => h) h.failure, .of_log rfl rfl fun h => h⟩
      · exact ⟨h.keep rfl rfl rfl rfl (fun h => h) h.failure, .of_log rfl rfl fun h => h⟩
  · exact ⟨h.keep rfl rfl rfl rfl (fun h => h) h.failure, .of_log rfl rfl fun h => h⟩
  · rename_i fault _
    have hsome := @isSome_recordFault self fault
    rw [recordFault_eq]
    exact ⟨h.keep rfl rfl rfl rfl (fun h => h) h.failure, .of_log rfl rfl fun _ => hsome⟩
  · exact ⟨h.keep rfl rfl rfl rfl (fun h => h) h.failure, .of_log rfl rfl fun h => h⟩
  · exact ⟨h, .of_log rfl rfl fun h => h⟩

theorem Sound.closeStdin (h : Sound text self) :
    Sound text self.closeStdin ∧ OthersKeep self self.closeStdin := by
  unfold OwnedChild.closeStdin
  split
  · exact ⟨h.keep rfl rfl rfl rfl (fun h => h) h.failure, .of_log rfl rfl fun h => h⟩
  · exact ⟨h, .of_log rfl rfl fun h => h⟩

/-- A failure of the cleanup is there once it has finished, and it finishes once. -/
theorem Sound.finishCleanup (h : Sound text self) (failure : Option PipeError) :
    Sound text (self.finishCleanup failure) ∧ OthersKeep self (self.finishCleanup failure) := by
  unfold OwnedChild.finishCleanup
  split
  · rename_i hrunning
    refine ⟨h.keep rfl rfl rfl rfl (fun hfailed => ?_) fun _ => rfl, .of_log rfl rfl fun h => h⟩
    have hfinished := h.failure hfailed
    rw [hrunning.2.2] at hfinished
    cases hfinished
  · exact ⟨h, .of_log rfl rfl fun h => h⟩

/-! ### The caller -/

theorem othersKeep_setPc (pc : CallPc) : OthersKeep self (self.setPc pc) :=
  .of_log rfl rfl fun h => h

theorem othersKeep_answer (call : Call) (answer : Except SupervisionError WorkerResult) :
    OthersKeep self (self.answer call answer) :=
  ⟨rfl, .inr ⟨.returned call.command.requestId answer, trivial, rfl⟩, fun h => h⟩

/-- A call refuses that had nothing before it. -/
theorem Sound.refuse (h : Sound text self) (hquiet : self.flow.Quiet) (call : Call)
    (error : SupervisionError) : Sound text (self.answer call (.error error)) := by
  obtain ⟨hafter, hentries⟩ := hquiet.refuse h.entries call.command.requestId error
  exact ⟨hentries, .inl hafter, h.failure⟩

/-- A call refuses after one has failed. -/
theorem Sound.refuse_over (h : Sound text self) (hover : self.flow.Over) (hspent : self.Spent)
    (call : Call) (error : SupervisionError) : Sound text (self.answer call (.error error)) := by
  obtain ⟨hafter, hentries⟩ := hover.refuse h.entries call.command.requestId error
  exact ⟨hentries, .inr ⟨hafter, hspent⟩, h.failure⟩

theorem Sound.request (h : Sound text self) (call : Call) :
    Sound text (self.request call) ∧ OthersKeep self (self.request call) := by
  unfold OwnedChild.request
  split
  · rename_i hpc
    have hphase := h.phase
    unfold Phase at hphase
    rw [hpc] at hphase
    split
    · refine ⟨?_, othersKeep_answer call _⟩
      rcases hphase with hquiet | ⟨hover, hspent⟩
      · exact h.refuse hquiet call _
      · exact h.refuse_over hover hspent call _
    · rename_i husable
      rw [not_or] at husable
      refine ⟨⟨h.entries, ?_, h.failure⟩, othersKeep_setPc _⟩
      refine hphase.imp_right fun ⟨hover, hspent⟩ => ⟨hover, ?_⟩
      rcases hspent with hstopped | hfailed | hreceiver
      · exact absurd hstopped husable.1
      · exact hfailed
      · exact absurd hreceiver husable.2
  · exact ⟨h, .of_log rfl rfl fun h => h⟩

/-- The checks of a call that has nothing before it. -/
theorem Sound.checkStep (h : Sound text self) {check : EntryCheck}
    (hpc : self.pc = .checking call check) :
    Sound text (self.checkStep text call check) ∧ OthersKeep self (self.checkStep text call check) := by
  have hphase := h.phase
  unfold Phase at hphase
  rw [hpc] at hphase
  cases check with
  | cleanup =>
    unfold OwnedChild.checkStep
    dsimp only
    split
    · refine ⟨?_, othersKeep_answer call _⟩
      rename_i failure hfailure
      rcases hphase with hquiet | ⟨hover, hfailed⟩
      · exact h.refuse hquiet call _
      · exact h.refuse_over hover (.inr (.inl hfailed)) call _
    · rename_i hnone
      refine ⟨⟨h.entries, ?_, h.failure⟩, othersKeep_setPc _⟩
      apply hphase.resolve_right
      rintro ⟨_, hfailed⟩
      rw [hnone] at hfailed
      cases hfailed
  | fault =>
    unfold OwnedChild.checkStep
    dsimp only
    split
    · exact ⟨⟨h.entries, .inl hphase, h.failure⟩, othersKeep_setPc _⟩
    · exact ⟨⟨h.entries, hphase, h.failure⟩, othersKeep_setPc _⟩
  | shutdown | deadline =>
    unfold OwnedChild.checkStep
    dsimp only
    split
    · exact ⟨h.refuse hphase call _, othersKeep_answer call _⟩
    · exact ⟨⟨h.entries, hphase, h.failure⟩, othersKeep_setPc _⟩
  | register =>
    unfold OwnedChild.checkStep
    dsimp only
    split
    · exact ⟨h.refuse hphase call _, othersKeep_answer call _⟩
    · rename_i frame _
      split
      · exact ⟨h.refuse hphase call _, othersKeep_answer call _⟩
      · rcases self.requests.register_cases call.command with ⟨e, hrefused⟩ | ⟨hok, hpending⟩
        · rw [hrefused]
          exact ⟨h.refuse hphase call _, othersKeep_answer call _⟩
        · rw [hok]
          obtain ⟨hlive, hentries⟩ := hphase.register h.entries call.command.requestId
          have hflow : ∀ pc, OwnedChild.flow ((({ self with
              requests := (self.requests.register call.command).2 }).note
                (.registered call.command.requestId)).setPc pc) =
              { self.flow with
                pending := some call.command.requestId
                log := self.flow.log ++ [.registered call.command.requestId] } := fun pc => by
            rw [← hpending]
            rfl
          refine ⟨⟨hentries, ⟨[], ?_⟩, h.failure⟩, rfl,
            .inr ⟨.registered call.command.requestId, trivial, rfl⟩, fun h => h⟩
          rw [hflow]
          exact hlive

/-- A call goes on with what it had. -/
theorem Sound.goesOn (h : Sound text self) {pc : RunningPc}
    (hlive : self.flow.Live call.command.requestId [] since) (hheld : heldBy pc = []) :
    Sound text (self.setPc (.running call pc)) := by
  refine ⟨h.entries, ⟨since, ?_⟩, h.failure⟩
  rw [hheld]
  exact hlive

/-- A call gives up. -/
theorem Sound.givesUp (h : Sound text self) {held : List Dispatched}
    (hlive : self.flow.Live call.command.requestId held since) (error : SupervisionError) :
    Sound text (self.setPc (.cancelling call error)) :=
  ⟨h.entries, ⟨since, hlive.failing⟩, h.failure⟩

/-- A step of a write ends in a further one, in the loop, or in the call giving
up. -/
theorem writeStep_cases (self : OwnedChild) (answers : Answers) (call : Call) (left : Nat)
    (step : WriteStep) :
    (∃ pc, heldBy pc = [] ∧ self.writeStep answers call left step = .running call pc) ∨
      ∃ error, self.writeStep answers call left step = .cancelling call error := by
  cases step with
  | deadline | shutdown =>
    unfold writeStep
    dsimp only
    split
    · exact .inr ⟨_, rfl⟩
    · exact .inl ⟨_, rfl, rfl⟩
  | stdin =>
    unfold writeStep
    dsimp only
    split
    · exact .inl ⟨_, rfl, rfl⟩
    · exact .inr ⟨_, rfl⟩
  | next =>
    unfold writeStep
    dsimp only
    split
    · exact .inl ⟨_, rfl, rfl⟩
    · split
      · exact .inr ⟨_, rfl⟩
      · exact .inl ⟨_, rfl, rfl⟩
  | clock =>
    unfold writeStep
    dsimp only
    split
    · exact .inr ⟨_, rfl⟩
    · split
      · split
        · exact .inr ⟨_, rfl⟩
        · exact .inl ⟨_, rfl, rfl⟩
      · exact .inl ⟨_, rfl, rfl⟩
      · exact .inl ⟨_, rfl, rfl⟩
      · exact .inr ⟨_, rfl⟩
  | blocked =>
    unfold writeStep
    dsimp only
    split
    · exact .inr ⟨_, rfl⟩
    · exact .inl ⟨_, rfl, rfl⟩
  | polling =>
    unfold writeStep
    dsimp only
    split
    · exact .inr ⟨_, rfl⟩
    · split
      · exact .inl ⟨_, rfl, rfl⟩
      · exact .inl ⟨_, rfl, rfl⟩
      · exact .inr ⟨_, rfl⟩
      · exact .inr ⟨_, rfl⟩

/-- A call takes the first item of the queue, or goes on without. -/
theorem Sound.receive (h : Sound text self) (hlive : self.flow.Live call.command.requestId [] since)
    {empty : RunningPc} (hempty : heldBy empty = []) :
    Sound text (self.receive call empty) ∧ OthersKeep self (self.receive call empty) := by
  unfold OwnedChild.receive
  cases hqueue : self.queue with
  | nil => exact ⟨h.goesOn hlive hempty, othersKeep_setPc _⟩
  | cons =>
    refine ⟨⟨h.entries, ⟨since, ?_⟩, h.failure⟩, .of_log rfl rfl fun h => h⟩
    apply hlive.take
    change self.queue.map DispatchItem.output = _
    rw [hqueue]
    rfl

/-- The call looks at the item that it holds. -/
theorem Sound.handleItem (h : Sound text self)
    (hlive : self.flow.Live call.command.requestId [item.output] since) (answers : Answers) :
    Sound text (self.handleItem answers call item) ∧
      OthersKeep self (self.handleItem answers call item) := by
  unfold OwnedChild.handleItem
  split
  · exact ⟨h.givesUp hlive _, othersKeep_setPc _⟩
  · split
    · -- a fault that the item does not precede
      dsimp only
      split
      · rename_i final hfinal
        rw [hfinal] at hlive
        exact ⟨⟨h.entries, .inr ⟨hlive.last.1, since, hlive.failing⟩, h.failure⟩, othersKeep_setPc _⟩
      · exact ⟨h.givesUp hlive _, othersKeep_setPc _⟩
    · split
      · rename_i frame hframe
        rw [hframe] at hlive
        obtain ⟨hafter, hentries⟩ := hlive.observe h.entries fun _ heq => by cases heq
        refine ⟨?_, rfl, .inr ⟨.observed call.command.requestId (.progress frame), trivial, rfl⟩,
          fun h => h⟩
        have hobserved : Sound text ((self.observe call (.progress frame)).setPc
            (.running call .looping)) := ⟨hentries, ⟨_, hafter⟩, h.failure⟩
        split
        · exact hobserved.givesUp hafter _
        · exact hobserved
      · rename_i measurement hmeasured
        rw [hmeasured] at hlive
        obtain ⟨hafter, hentries⟩ := hlive.observe h.entries fun _ heq => by cases heq
        exact ⟨⟨hentries, ⟨_, hafter⟩, h.failure⟩, rfl,
          .inr ⟨.observed call.command.requestId (.measured measurement), trivial, rfl⟩, fun h => h⟩
      · rename_i final hfinal
        rw [hfinal] at hlive
        obtain ⟨hquiet, hentries⟩ := hlive.finish h.entries
        exact ⟨⟨hentries, .inl hquiet, h.failure⟩, othersKeep_answer call _⟩

theorem heldBy_emptyOr {empty : RunningPc} (hempty : heldBy empty = []) :
    heldBy (self.emptyOr empty) = [] := by
  unfold emptyOr
  split
  · rfl
  · exact hempty

theorem Sound.runningStep (h : Sound text self) {pc : RunningPc} (hpc : self.pc = .running call pc)
    (answers : Answers) : Sound text (self.runningStep answers call pc) ∧
      OthersKeep self (self.runningStep answers call pc) := by
  have hphase := h.phase
  unfold Phase at hphase
  rw [hpc] at hphase
  obtain ⟨since, hlive⟩ := hphase
  cases pc with
  | writing left step =>
    refine ⟨?_, othersKeep_setPc _⟩
    unfold OwnedChild.runningStep
    dsimp only
    rcases self.writeStep_cases answers call left step with ⟨pc, hheld, heq⟩ | ⟨error, heq⟩
    · rw [heq]
      exact h.goesOn hlive hheld
    · rw [heq]
      exact h.givesUp hlive error
  | looping => exact ⟨h.goesOn hlive rfl, othersKeep_setPc _⟩
  | polling => exact h.receive hlive (heldBy_emptyOr rfl)
  | emptied =>
    unfold OwnedChild.runningStep
    dsimp only
    split
    · exact ⟨h.goesOn hlive rfl, othersKeep_setPc _⟩
    · split
      · exact ⟨h.givesUp hlive _, othersKeep_setPc _⟩
      · exact ⟨h.goesOn hlive rfl, othersKeep_setPc _⟩
  | repolling => exact h.receive hlive rfl
  | waiting =>
    unfold OwnedChild.runningStep
    dsimp only
    split
    · exact ⟨h.givesUp hlive _, othersKeep_setPc _⟩
    · exact h.receive hlive (heldBy_emptyOr rfl)
  | received => exact h.handleItem hlive answers
  | disconnected => exact ⟨h.givesUp hlive _, othersKeep_setPc _⟩

/-- A call that has failed is over. -/
theorem Sound.fails (h : Sound text self) (hphase : self.flow.Quiet ∨
      self.flow.pending = none ∧ ∃ since, self.flow.Failing call.command.requestId since)
    (hspent : self.Spent) (error : SupervisionError) :
    Sound text (self.answer call (.error error)) := by
  rcases hphase with hquiet | ⟨hpending, since, hfailing⟩
  · exact h.refuse hquiet call error
  · obtain ⟨hover, hentries⟩ := hfailing.fail hpending h.entries error
    exact ⟨hentries, .inr ⟨hover, hspent⟩, h.failure⟩

theorem Sound.stopStep (h : Sound text self) {error : SupervisionError} {pc : StopPc}
    (hpc : self.pc = .stopping call error pc) :
    Sound text (self.stopStep call error pc) ∧ OthersKeep self (self.stopStep call error pc) := by
  have hphase := h.phase
  unfold Phase at hphase
  rw [hpc] at hphase
  cases pc with
  | aborting =>
    unfold OwnedChild.stopStep
    dsimp only
    split
    · rename_i hstopped
      exact ⟨h.fails hphase (.inl hstopped) error, othersKeep_answer call _⟩
    · exact ⟨⟨h.entries, hphase, h.failure⟩, .of_log rfl rfl fun h => h⟩
  | awaiting =>
    unfold OwnedChild.stopStep
    dsimp only
    split
    · exact ⟨h, .of_log rfl rfl fun h => h⟩
    · split
      · rename_i failure hfailure
        refine ⟨h.fails hphase (.inr (.inl ?_)) _, othersKeep_answer call _⟩
        rw [hfailure]
        rfl
      · refine ⟨⟨h.entries, ?_, h.failure⟩, .of_log rfl rfl fun h => h⟩
        rcases hphase with hquiet | ⟨hpending, since, hfailing⟩
        · exact .inl ⟨hquiet.pending, rfl, hquiet.inHand, hquiet.outside, hquiet.alive⟩
        · exact .inr ⟨hpending, since, hfailing.under, hfailing.own, hfailing.pending, hfailing.alive⟩
  | joining =>
    unfold OwnedChild.stopStep
    dsimp only
    split
    · have hstopped : Sound text { self with stopped := true } :=
        ⟨h.entries, by unfold Phase; rw [hpc]; exact hphase, h.failure⟩
      refine ⟨hstopped.fails hphase (.inl rfl) error, ?_⟩
      exact ⟨rfl, .inr ⟨.returned call.command.requestId (.error error), trivial, rfl⟩, fun h => h⟩
    · exact ⟨h, .of_log rfl rfl fun h => h⟩

theorem Sound.callerStep (h : Sound text self) (answers : Answers) :
    Sound text (self.callerStep text answers) ∧ OthersKeep self (self.callerStep text answers) := by
  unfold OwnedChild.callerStep
  split
  · exact ⟨h, .of_log rfl rfl fun h => h⟩
  · rename_i hpc
    exact h.checkStep hpc
  · rename_i hpc
    exact h.runningStep hpc answers
  · rename_i call error hpc
    have hphase := h.phase
    unfold Phase at hphase
    rw [hpc] at hphase
    obtain ⟨since, hfailing⟩ := hphase
    have hcancelled := self.requests.cancel_pendingId hfailing.pending
    refine ⟨⟨h.entries, .inr ⟨hcancelled, since, hfailing.under, hfailing.own, fun p hp => ?_,
      hfailing.alive⟩, h.failure⟩, .of_log rfl rfl fun h => h⟩
    cases hcancelled.symm.trans hp
  · rename_i hpc
    exact h.stopStep hpc

/-! ## Runs -/

/-- A worker as the runs from `start reader clock` leave it. -/
structure Kept (text : WorkerText) (reader : FrameReader) (worker : OwnedChild) : Prop where
  sound : Sound text worker
  reading : Reading text reader worker

theorem kept_start (text : WorkerText) (reader : FrameReader) (clock : Nat) :
    Kept text reader (start reader clock) where
  sound := {
    entries := entries_nil
    phase := .inl ⟨rfl, rfl, rfl, fun _ _ h => (by cases h), not_failed_nil⟩
    failure := fun h => by cases h }
  reading := {
    ends := rfl
    reads := List.nil_prefix
    rest := fun _ => rfl
    parsed := fun _ h => by cases h
    large := fun h => absurd h List.not_mem_nil }

theorem Kept.step (h : Kept text reader self) (move : Move) : Kept text reader (self.step text move) := by
  have hothers : ∀ {after : OwnedChild}, Sound text after ∧ OthersKeep self after →
      Kept text reader after := fun ⟨hsound, hkeep⟩ => ⟨hsound, h.reading.keep hkeep⟩
  cases move with
  | tick =>
    exact hothers ⟨h.sound.keep rfl rfl rfl rfl (fun h => h) h.sound.failure, .of_log rfl rfl fun h => h⟩
  | dispatcher => exact ⟨h.sound.dispatcherStep h.reading, h.reading.dispatcherStep⟩
  | stderr read => exact hothers (h.sound.stderrStep read)
  | closeStdin => exact hothers h.sound.closeStdin
  | finishCleanup failure => exact hothers (h.sound.finishCleanup failure)
  | request call => exact hothers (h.sound.request call)
  | caller answers => exact hothers (h.sound.callerStep answers)

theorem Kept.run (h : Kept text reader self) (moves : List Move) :
    Kept text reader (self.run text moves) := by
  unfold OwnedChild.run
  induction moves generalizing self with
  | nil => exact h
  | cons move rest ih => exact ih (h.step move)

end OwnedChild

end YawnApp.SessionCore
