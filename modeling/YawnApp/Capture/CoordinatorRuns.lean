import YawnApp.Capture.Coordinator

set_option autoImplicit false

/-!
# Runs of the capture coordinator

Three invariants of every interleaving: the updates keep to their order, a take
that is finalized was sound when `finish` decided, and a writer is given only
blocks that arrived in time.
-/

namespace YawnApp.Capture.Coordinator

/-! ## The order of the updates -/

/-- The updates of a take that records: so many pauses that ended, and one that did
not if the take is held. -/
def session (pauses : Nat) (held : Bool) : List MeetingCaptureUpdate :=
  .recording :: (List.replicate pauses [.suspended, .resumed]).flatten ++
    if held then [.suspended] else []

/-- An update that ends a take. -/
def IsTerminal : MeetingCaptureUpdate → Prop
  | .finalized _ | .failed _ | .interrupted => True
  | _ => False

def IsFinalized : MeetingCaptureUpdate → Prop
  | .finalized _ => True
  | _ => False

/-- What was emitted while a take is under way. -/
def UnderWay (updates : List MeetingCaptureUpdate) : Prop :=
  updates = [] ∨ ∃ pauses held, updates = session pauses held

/-- What was emitted once it is over: one that never recorded is not finalized. -/
def Over (updates : List MeetingCaptureUpdate) : Prop :=
  ∃ last, IsTerminal last ∧ ((updates = [last] ∧ ¬ IsFinalized last) ∨
    ∃ pauses held, updates = session pauses held ++ [last])

theorem session_suspended (pauses : Nat) :
    session pauses false ++ [.suspended] = session pauses true := by
  simp [session]

theorem session_resumed (pauses : Nat) :
    session pauses true ++ [.resumed] = session (pauses + 1) false := by
  simp [session, List.replicate_succ']

/-- What was emitted in a state. -/
def Emitted (hasPair : Bool) (updates : List MeetingCaptureUpdate) : MeetingCaptureState → Prop
  | .paused | .arming => updates = [] ∧ hasPair = false
  | .recording | .suspending => (∃ pauses, updates = session pauses false) ∧ hasPair = true
  | .suspended | .resuming => (∃ pauses, updates = session pauses true) ∧ hasPair = true
  | .stopping =>
    (updates = [] ∧ hasPair = false) ∨ ((∃ pauses held, updates = session pauses held) ∧ hasPair = true)
  | .terminal => Over updates

/-- The state while the control queue is where it is. -/
def Control.Fits (state : MeetingCaptureState) : Control → Prop
  | .idle => state ≠ .suspending ∧ state ≠ .stopping
  | .invalidating | .releasing => state = .suspending
  | .acquiring resume | .starting resume _ _ => state = if resume then .resuming else .arming
  | .stopping _ _ | .deciding _ | .finishing _ _ _ | .closing _ _ _ => state = .stopping

/-- The pair that `finish` holds is there until its last section. -/
def Control.HoldsPair (hasPair : Bool) : Control → Prop
  | .finishing _ _ held => held = true → hasPair = true
  | .closing _ _ receipt => receipt.isSome = true → hasPair = true
  | _ => True

structure Ordered (s : Coordinator) : Prop where
  fits : s.control.Fits s.state
  emitted : Emitted s.hasPair s.updates s.state
  holds : s.control.HoldsPair s.hasPair

theorem Emitted.stopping {hasPair : Bool} {updates : List MeetingCaptureUpdate}
    {state : MeetingCaptureState} (h : Emitted hasPair updates state) (hstate : state ≠ .terminal) :
    Emitted hasPair updates .stopping := by
  cases state with
  | paused | arming => exact .inl h
  | recording | suspending => exact .inr ⟨h.1.imp fun pauses h => ⟨false, h⟩, h.2⟩
  | suspended | resuming => exact .inr ⟨h.1.imp fun pauses h => ⟨true, h⟩, h.2⟩
  | stopping => exact h
  | terminal => exact absurd rfl hstate

theorem Emitted.allowed {hasPair : Bool} {updates : List MeetingCaptureUpdate}
    {state : MeetingCaptureState} (h : Emitted hasPair updates state) :
    UnderWay updates ∨ Over updates := by
  cases state with
  | paused | arming => exact .inl (.inl h.1)
  | recording | suspending => exact .inl (.inr (h.1.imp fun pauses h => ⟨false, h⟩))
  | suspended | resuming => exact .inl (.inr (h.1.imp fun pauses h => ⟨true, h⟩))
  | stopping => exact .inl (h.imp (fun h => h.1) fun h => h.1)
  | terminal => exact .inr h

/-! ## What a callback changes -/

/-- A callback leaves the control queue and what it keeps alone; it may store a
fault, and notes it. -/
structure Callback (s t : Coordinator) : Prop where
  state : t.state = s.state
  control : t.control = s.control
  hasPair : t.hasPair = s.hasPair
  updates : t.updates = s.updates
  readyLegs : t.readyLegs = s.readyLegs
  epoch : t.acquisitionEpoch = s.acquisitionEpoch
  fault : (t.notes = s.notes ∧ t.storedFault = s.storedFault) ∨
    ((∃ fault, t.notes = s.notes ++ [.fault fault]) ∧ t.storedFault.isSome = true)

namespace Callback

theorem refl (s : Coordinator) : Callback s s :=
  ⟨rfl, rfl, rfl, rfl, rfl, rfl, .inl ⟨rfl, rfl⟩⟩

theorem store (s : Coordinator) (fault : MeetingCaptureFault) : Callback s (s.store fault) := by
  have hsome : (s.storedFault.or (some fault)).isSome = true := by cases s.storedFault <;> rfl
  unfold Coordinator.store
  dsimp only
  split
  · exact ⟨rfl, rfl, rfl, rfl, rfl, rfl, .inr ⟨⟨fault, rfl⟩, hsome⟩⟩
  · exact ⟨rfl, rfl, rfl, rfl, rfl, rfl, .inr ⟨⟨fault, rfl⟩, hsome⟩⟩

theorem record (s : Coordinator) (fault : MeetingCaptureFault) : Callback s (s.record fault) := by
  unfold Coordinator.record
  split
  · exact refl s
  · exact store s fault

theorem receive (s : Coordinator) (leg : MeetingCaptureLeg) (epoch : UInt64) (data : Bytes) :
    Callback s (s.receive leg epoch data) := by
  unfold Coordinator.receive
  dsimp only
  split
  · exact refl s
  · split
    · exact refl s
    · split
      · exact ⟨rfl, rfl, rfl, rfl, rfl, rfl, .inl ⟨rfl, rfl⟩⟩
      · exact ⟨rfl, rfl, rfl, rfl, rfl, rfl, .inl ⟨rfl, rfl⟩⟩
      · exact ⟨rfl, rfl, rfl, rfl, rfl, rfl, .inl ⟨rfl, rfl⟩⟩
      · split
        · exact ⟨rfl, rfl, rfl, rfl, rfl, rfl, .inl ⟨rfl, rfl⟩⟩
        · exact refl s
      all_goals exact refl s

theorem recordSource (s : Coordinator) (leg : MeetingCaptureLeg) (epoch : UInt64)
    (fault : MeetingCaptureFault) : Callback s (s.recordSource leg epoch fault) := by
  unfold Coordinator.recordSource
  split
  · split <;> exact ⟨rfl, rfl, rfl, rfl, rfl, rfl, .inl ⟨rfl, rfl⟩⟩
  · exact ⟨rfl, rfl, rfl, rfl, rfl, rfl, .inl ⟨rfl, rfl⟩⟩

theorem land (s : Coordinator) (accepted : Bool) (flight : Flight) :
    Callback s (s.land accepted flight) := by
  cases flight with
  | append =>
    unfold Coordinator.land
    dsimp only
    split
    · exact ⟨rfl, rfl, rfl, rfl, rfl, rfl, .inl ⟨rfl, rfl⟩⟩
    · split <;> exact ⟨rfl, rfl, rfl, rfl, rfl, rfl, .inl ⟨rfl, rfl⟩⟩
  | record fault => exact record s fault
  | configuration =>
    unfold Coordinator.land
    dsimp only
    split
    · exact refl s
    · exact ⟨rfl, rfl, rfl, rfl, rfl, rfl, .inl ⟨rfl, rfl⟩⟩
  | source leg epoch fault =>
    unfold Coordinator.land
    dsimp only
    split
    · exact store s fault
    · exact refl s

theorem ordered {s t : Coordinator} (h : Callback s t) (hs : Ordered s) : Ordered t := by
  refine ⟨?_, ?_, ?_⟩
  · rw [h.control, h.state]
    exact hs.fits
  · rw [h.hasPair, h.updates, h.state]
    exact hs.emitted
  · rw [h.control, h.hasPair]
    exact hs.holds

end Callback

/-! ## The control queue keeps the order -/

section Ordered

variable {s : Coordinator}

theorem Ordered.beginFinish (h : Ordered s) (ending : Ending) : Ordered (s.beginFinish ending) := by
  unfold Coordinator.beginFinish
  split
  · exact h
  · rename_i hstate
    exact ⟨rfl, h.emitted.stopping hstate, trivial⟩

theorem Ordered.fail (h : Ordered s) (fault : MeetingCaptureFault) : Ordered (s.fail fault) := by
  unfold Coordinator.fail
  split
  · exact h
  · exact h.beginFinish _

theorem Ordered.activate (h : Ordered s) : Ordered s.activate := by
  unfold Coordinator.activate
  split
  · rename_i hstate
    have hemitted := h.emitted
    rw [hstate] at hemitted
    exact ⟨rfl, hemitted, trivial⟩
  · exact h.fail _

theorem Ordered.resume (h : Ordered s) : Ordered s.resume := by
  unfold Coordinator.resume
  split
  · rename_i hstate
    have hemitted := h.emitted
    rw [hstate] at hemitted
    exact ⟨rfl, hemitted, trivial⟩
  · exact h.fail _

theorem Ordered.suspend (h : Ordered s) : Ordered s.suspend := by
  unfold Coordinator.suspend
  split
  · rename_i hstate
    have hemitted := h.emitted
    rw [hstate] at hemitted
    exact ⟨rfl, hemitted, trivial⟩
  · exact h

theorem state_of_isActiveAcquisition {epoch : UInt64} {required : MeetingCaptureState}
    (h : s.isActiveAcquisition epoch required = true) :
    s.acquisitionEpoch = epoch ∧ s.state = required := by
  simpa [isActiveAcquisition] using h

theorem Ordered.markReady (h : Ordered s) (hidle : s.control = .idle) (settings : Settings)
    (leg : MeetingCaptureLeg) (epoch now : UInt64) (opened : Except MeetingCaptureFault Unit) :
    Ordered (s.markReady settings leg epoch now opened) := by
  have hinsert : Ordered (s.insertReady leg epoch) := ⟨h.fits, h.emitted, h.holds⟩
  unfold Coordinator.markReady
  dsimp only
  split
  · exact h
  · rename_i hactive
    split
    · exact hinsert
    · cases opened with
      | error fault => exact hinsert.fail fault
      | ok _ =>
        have hemitted := h.emitted
        rw [(state_of_isActiveAcquisition (not_not.mp hactive)).2] at hemitted
        refine ⟨?_, ⟨⟨0, ?_⟩, rfl⟩, ?_⟩
        · change Control.Fits .recording s.control
          rw [hidle]
          exact ⟨nofun, nofun⟩
        · change s.updates ++ [.recording] = session 0 false
          rw [hemitted.1]
          rfl
        · change Control.HoldsPair true s.control
          rw [hidle]
          trivial

theorem Ordered.markResumed (h : Ordered s) (hidle : s.control = .idle) (settings : Settings)
    (leg : MeetingCaptureLeg) (epoch now : UInt64) :
    Ordered (s.markResumed settings leg epoch now) := by
  unfold Coordinator.markResumed
  dsimp only
  split
  · exact h
  · rename_i hactive
    split
    · exact ⟨h.fits, h.emitted, h.holds⟩
    · have hemitted := h.emitted
      rw [(state_of_isActiveAcquisition (not_not.mp hactive)).2] at hemitted
      obtain ⟨⟨pauses, hupdates⟩, hpair⟩ := hemitted
      refine ⟨?_, ⟨⟨pauses + 1, ?_⟩, hpair⟩, h.holds⟩
      · change Control.Fits .recording s.control
        rw [hidle]
        exact ⟨nofun, nofun⟩
      · change s.updates ++ [.resumed] = _
        rw [hupdates, session_resumed]

theorem Ordered.checkForStalledAudio (h : Ordered s) (settings : Settings) (epoch now : UInt64) :
    Ordered (s.checkForStalledAudio settings epoch now) := by
  unfold Coordinator.checkForStalledAudio
  split
  · exact h
  · split
    · exact h
    · split
      · exact h
      · exact Ordered.fail (s := s.note (.fault _)) ⟨h.fits, h.emitted, h.holds⟩ _

theorem Ordered.runJob (h : Ordered s) (hidle : s.control = .idle) (settings : Settings)
    (answers : Answers) (job : Job) : Ordered (s.runJob settings answers job) := by
  cases job with
  | fail fault => exact h.fail fault
  | finish ending => exact h.beginFinish ending
  | markReady leg epoch => exact h.markReady hidle settings leg epoch _ _
  | markResumed leg epoch => exact h.markResumed hidle settings leg epoch _
  | recordBlockDelivery =>
    unfold Coordinator.runJob Coordinator.recordBlockDelivery
    dsimp only
    split
    · exact h
    · exact ⟨h.fits, h.emitted, h.holds⟩

theorem isTerminal_terminalUpdate (ending : Ending) (fault : Option MeetingCaptureFault)
    (receipt : Option MeetingCaptureReceipt) : IsTerminal (terminalUpdate ending fault receipt) := by
  unfold terminalUpdate
  split
  · trivial
  · split
    · trivial
    · split
      · split <;> trivial
      · trivial

/-- A take is finalized with a receipt, and without a fault. -/
theorem terminalUpdate_eq_finalized {ending : Ending} {fault : Option MeetingCaptureFault}
    {receipt : Option MeetingCaptureReceipt}
    (h : IsFinalized (terminalUpdate ending fault receipt)) :
    fault = none ∧ receipt.isSome = true := by
  unfold terminalUpdate at h
  split at h
  · cases h
  · split at h
    · cases h
    · split at h
      · exact ⟨rfl, rfl⟩
      · cases h

/-- The job under way keeps the order, section by section. -/
theorem Ordered.advance (h : Ordered s) (answers : Answers) : Ordered (s.advance answers) := by
  obtain ⟨hfits, hemitted, hholds⟩ := h
  unfold Coordinator.advance
  cases hcontrol : s.control with
  | idle => exact ⟨by rw [hcontrol] at hfits ⊢; exact hfits, hemitted, hholds⟩
  | invalidating =>
    rw [hcontrol] at hfits
    exact ⟨hfits, hemitted, trivial⟩
  | releasing =>
    rw [hcontrol] at hfits
    change s.state = .suspending at hfits
    rw [hfits] at hemitted
    obtain ⟨⟨pauses, hupdates⟩, hpair⟩ := hemitted
    refine ⟨⟨nofun, nofun⟩, ⟨⟨pauses, ?_⟩, hpair⟩, trivial⟩
    change s.updates ++ [.suspended] = _
    rw [hupdates, session_suspended]
  | acquiring =>
    rw [hcontrol] at hfits
    exact ⟨hfits, hemitted, trivial⟩
  | starting resume leg =>
    rw [hcontrol] at hfits
    have hactive : s.state ≠ .suspending ∧ s.state ≠ .stopping := by
      change s.state = _ at hfits
      rw [hfits]
      cases resume <;> exact ⟨nofun, nofun⟩
    dsimp only
    cases answers.started with
    | error fault =>
      exact Ordered.fail (s := { s.note (.fault fault) with control := .idle })
        ⟨hactive, hemitted, trivial⟩ fault
    | ok _ =>
      cases leg with
      | mic => exact ⟨hfits, hemitted, trivial⟩
      | system => exact ⟨hactive, hemitted, trivial⟩
  | stopping leg =>
    rw [hcontrol] at hfits
    cases leg with
    | mic | system => exact ⟨hfits, hemitted, trivial⟩
  | deciding =>
    rw [hcontrol] at hfits
    exact ⟨hfits, hemitted, fun h => h⟩
  | finishing ending terminalFault hasPair =>
    rw [hcontrol] at hfits hholds
    dsimp only
    cases hasPair with
    | false => exact ⟨hfits, hemitted, nofun⟩
    | true =>
      rw [if_pos rfl]
      cases answers.finished with
      | ok => exact ⟨hfits, hemitted, fun _ => hholds rfl⟩
      | error => exact ⟨hfits, hemitted, nofun⟩
  | closing ending terminalFault receipt =>
    rw [hcontrol] at hfits hholds
    change s.state = .stopping at hfits
    rw [hfits] at hemitted
    refine ⟨⟨nofun, nofun⟩, ⟨_, isTerminal_terminalUpdate ending terminalFault receipt, ?_⟩, trivial⟩
    rcases hemitted with ⟨hupdates, hpair⟩ | ⟨⟨pauses, held, hupdates⟩, -⟩
    · refine .inl ⟨?_, fun hfinalized => ?_⟩
      · change s.updates ++ _ = _
        rw [hupdates]
        rfl
      · have hheld := hholds (terminalUpdate_eq_finalized hfinalized).2
        rw [hpair] at hheld
        cases hheld
    · refine .inr ⟨pauses, held, ?_⟩
      change s.updates ++ _ = _
      rw [hupdates]

theorem ifIdle_cases (P : Coordinator → Prop) {next : Coordinator} (hs : P s)
    (hnext : s.control = .idle → P next) : P (s.ifIdle next) := by
  unfold ifIdle
  split
  · rename_i hidle
    exact hnext hidle
  · exact hs

theorem Ordered.step (h : Ordered s) (settings : Settings) (step : Step) :
    Ordered (s.step settings step) := by
  cases step with
  | activate => exact ifIdle_cases Ordered h fun _ => h.activate
  | suspend => exact ifIdle_cases Ordered h fun _ => h.suspend
  | resume => exact ifIdle_cases Ordered h fun _ => h.resume
  | stop | interrupt | abort => exact ifIdle_cases Ordered h fun _ => h.beginFinish _
  | job index answers =>
    unfold Coordinator.step
    dsimp only
    split
    · exact h
    · rename_i job _
      apply ifIdle_cases Ordered h
      intro hidle
      exact Ordered.runJob (s := { s with jobs := s.jobs.eraseIdx index })
        ⟨h.fits, h.emitted, h.holds⟩ hidle settings answers job
  | tick epoch now => exact ifIdle_cases Ordered h fun _ => h.checkForStalledAudio settings epoch now
  | advance answers => exact h.advance answers
  | receive leg epoch data => exact (Callback.receive s leg epoch data).ordered h
  | sourceFault leg epoch fault => exact (Callback.recordSource s leg epoch fault).ordered h
  | writerFault fault => exact (Callback.record s fault).ordered h
  | thread index accepted =>
    unfold Coordinator.step
    dsimp only
    split
    · exact h
    · exact (Callback.land _ accepted _).ordered ⟨h.fits, h.emitted, h.holds⟩

end Ordered

end YawnApp.Capture.Coordinator
