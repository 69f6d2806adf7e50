import YawnApp.Capture.CoordinatorRuns

set_option autoImplicit false

/-!
# What a run of the capture coordinator is audited for

A take that is finalized was sound when `finish` decided: no source, writer or
watchdog had failed it, and both legs had been ready in one acquisition.  A writer is
given only blocks that arrived in time.  A fault or a tick of an acquisition that is
not current leaves the take alone.
-/

namespace YawnApp.Capture.Coordinator

open List

/-! ## The terminal decision -/

def Clean (notes : List Note) : Prop := ∀ fault, Note.fault fault ∉ notes

/-- Both legs were ready in one acquisition. -/
def ReadyTogether (notes : List Note) : Prop := ∃ epoch, ∀ leg, Note.ready leg epoch ∈ notes

/-- `finish` decided when no fault had been noted and both legs had been ready. -/
def SoundDecision (notes : List Note) : Prop :=
  ∃ before after, notes = before ++ .decided :: after ∧ Clean before ∧ ReadyTogether before

variable {notes : List Note}

theorem ReadyTogether.append (h : ReadyTogether notes) (more : List Note) :
    ReadyTogether (notes ++ more) := by
  obtain ⟨epoch, hready⟩ := h
  exact ⟨epoch, fun leg => mem_append_left more (hready leg)⟩

theorem SoundDecision.append (h : SoundDecision notes) (more : List Note) :
    SoundDecision (notes ++ more) := by
  obtain ⟨before, after, rfl, hclean, hready⟩ := h
  exact ⟨before, after ++ more, by simp, hclean, hready⟩

/-- The stored fault is not read yet, and the job under way has none of its own. -/
def Control.Undecided : Control → Prop
  | .stopping _ ending | .deciding ending => ending.failure = none
  | .finishing _ _ _ | .closing _ _ _ => False
  | _ => True

def Control.Acquired : Control → Prop
  | .acquiring _ => False
  | _ => True

/-- What `finish` knows once it has decided without a fault. -/
def Control.Decided (notes : List Note) : Control → Prop
  | .finishing _ none true | .closing _ none (some _) => SoundDecision notes
  | _ => True

theorem Control.Decided.append {control : Control} (h : control.Decided notes) (more : List Note) :
    control.Decided (notes ++ more) := by
  unfold Control.Decided at h ⊢
  split
  · exact h.append more
  · exact h.append more
  · trivial

/-- What a noted fault does not undo. -/
structure Kept (s : Coordinator) : Prop where
  ready : ∀ leg, s.readyLegs leg = true → s.state ≠ .paused ∧ s.state ≠ .suspended ∧
    s.control.Acquired ∧
      (s.state = .arming ∨ s.state = .resuming → Note.ready leg s.acquisitionEpoch ∈ s.notes)
  pair : s.hasPair = true → ReadyTogether s.notes
  decided : s.control.Decided s.notes
  finalized : ∀ receipt, MeetingCaptureUpdate.finalized receipt ∈ s.updates → SoundDecision s.notes

structure Audit (s : Coordinator) : Prop extends Kept s where
  clean : s.state ≠ .terminal → s.storedFault = none → s.control.Undecided → Clean s.notes

section Audit

variable {s t : Coordinator}

theorem Kept.note (h : Kept s) (n : Note) : Kept (s.note n) where
  ready leg hleg := by
    obtain ⟨hpaused, hsuspended, hacquired, hnoted⟩ := h.ready leg hleg
    exact ⟨hpaused, hsuspended, hacquired, fun hstate => mem_append_left [n] (hnoted hstate)⟩
  pair hpair := (h.pair hpair).append [n]
  decided := h.decided.append [n]
  finalized receipt hreceipt := (h.finalized receipt hreceipt).append [n]

/-- A callback keeps the audit: the fault it notes is stored. -/
theorem Callback.audit (h : Callback s t) (hs : Audit s) : Audit t := by
  have hkept : Kept t := by
    obtain ⟨more, hmore⟩ : ∃ more, t.notes = s.notes ++ more := by
      rcases h.fault with ⟨hnotes, -⟩ | ⟨⟨fault, hnotes⟩, -⟩
      · exact ⟨[], by rw [hnotes, append_nil]⟩
      · exact ⟨[.fault fault], hnotes⟩
    refine ⟨fun leg hleg => ?_, fun hpair => ?_, ?_, fun receipt hreceipt => ?_⟩
    · rw [h.readyLegs] at hleg
      rw [h.state, h.control, h.epoch, hmore]
      obtain ⟨hpaused, hsuspended, hacquired, hnoted⟩ := hs.ready leg hleg
      exact ⟨hpaused, hsuspended, hacquired, fun hstate =>
        mem_append_left more (hnoted hstate)⟩
    · rw [h.hasPair] at hpair
      rw [hmore]
      exact (hs.pair hpair).append more
    · rw [h.control, hmore]
      exact hs.decided.append more
    · rw [h.updates] at hreceipt
      rw [hmore]
      exact (hs.finalized receipt hreceipt).append more
  refine ⟨hkept, fun hstate hstored hundecided => ?_⟩
  rcases h.fault with ⟨hnotes, hfault⟩ | ⟨-, hsome⟩
  · rw [h.state] at hstate
    rw [hfault] at hstored
    rw [h.control] at hundecided
    rw [hnotes]
    exact hs.clean hstate hstored hundecided
  · rw [hstored] at hsome
    cases hsome

/-! ## The control queue keeps the audit -/

theorem Kept.beginFinish (h : Kept s) (ending : Ending) : Kept (s.beginFinish ending) := by
  unfold Coordinator.beginFinish
  split
  · exact h
  · exact ⟨fun _ _ => ⟨nofun, nofun, trivial, fun hstate => by rcases hstate with h | h <;> cases h⟩,
      h.pair, trivial, h.finalized⟩

theorem Audit.beginFinish (h : Audit s) (hidle : s.control = .idle) (ending : Ending) :
    Audit (s.beginFinish ending) := by
  refine ⟨h.toKept.beginFinish ending, ?_⟩
  unfold Coordinator.beginFinish
  split
  · exact h.clean
  · rename_i hstate
    intro _ hstored _
    apply h.clean hstate hstored
    rw [hidle]
    trivial

/-- A failure needs no clean notes: it holds the fault it fails with. -/
theorem Kept.fail (h : Kept s) (hstate : s.state ≠ .terminal) (fault : MeetingCaptureFault) :
    Audit (s.fail fault) := by
  unfold Coordinator.fail
  rw [if_neg hstate]
  refine ⟨h.beginFinish _, ?_⟩
  unfold Coordinator.beginFinish
  rw [if_neg hstate]
  intro _ _ hundecided
  cases hundecided

theorem Audit.fail (h : Audit s) (fault : MeetingCaptureFault) : Audit (s.fail fault) := by
  by_cases hstate : s.state = .terminal
  · unfold Coordinator.fail
    rw [if_pos hstate]
    exact h
  · exact h.toKept.fail hstate fault

/-- Where no leg can be ready, an acquisition can begin. -/
theorem Audit.begin (h : Audit s) (hidle : s.control = .idle) (hstate : s.state ≠ .terminal)
    (hnone : ∀ leg, s.readyLegs leg = false) (state : MeetingCaptureState) (resume : Bool) :
    Audit { s with state := state, control := .acquiring resume } where
  ready leg hleg := by
    have hready : s.readyLegs leg = true := hleg
    rw [hnone leg] at hready
    cases hready
  pair := h.pair
  decided := trivial
  finalized := h.finalized
  clean _ hstored _ := by
    apply h.clean hstate hstored
    rw [hidle]
    trivial

theorem Audit.activate (h : Audit s) (hidle : s.control = .idle) : Audit s.activate := by
  unfold Coordinator.activate
  split
  · rename_i hstate
    refine h.begin hidle (by rw [hstate]; nofun) (fun leg => ?_) _ _
    by_contra hleg
    exact (h.ready leg (Bool.of_not_eq_false hleg)).1 hstate
  · exact h.fail _

theorem Audit.resume (h : Audit s) (hidle : s.control = .idle) : Audit s.resume := by
  unfold Coordinator.resume
  split
  · rename_i hstate
    refine h.begin hidle (by rw [hstate]; nofun) (fun leg => ?_) _ _
    by_contra hleg
    exact (h.ready leg (Bool.of_not_eq_false hleg)).2.1 hstate
  · exact h.fail _

theorem Audit.suspend (h : Audit s) (hidle : s.control = .idle) : Audit s.suspend := by
  unfold Coordinator.suspend
  split
  · rename_i hstate
    refine ⟨⟨fun leg _ => ?_, h.pair, trivial, h.finalized⟩, fun _ hstored _ => ?_⟩
    · exact ⟨nofun, nofun, trivial, fun hstate => by rcases hstate with h | h <;> cases h⟩
    · apply h.clean (by rw [hstate]; nofun) hstored
      rw [hidle]
      trivial
  · exact h

theorem Audit.insertReady (h : Audit s) (hidle : s.control = .idle)
    (hstate : s.state = .arming ∨ s.state = .resuming) (leg : MeetingCaptureLeg) :
    Audit (s.insertReady leg s.acquisitionEpoch) where
  ready other hother := by
    have hlive : s.state ≠ .paused ∧ s.state ≠ .suspended := by
      rcases hstate with hstate | hstate <;> rw [hstate] <;> exact ⟨nofun, nofun⟩
    have hcontrol : s.control.Acquired := by
      rw [hidle]
      trivial
    refine ⟨hlive.1, hlive.2, hcontrol, fun _ => ?_⟩
    change Note.ready other s.acquisitionEpoch ∈ s.notes ++ [.ready leg s.acquisitionEpoch]
    have hcases : other = leg ∨ s.readyLegs other = true := by
      simpa [Coordinator.insertReady] using hother
    rcases hcases with rfl | hother
    · exact mem_append_right _ (mem_singleton.mpr rfl)
    · exact mem_append_left _ ((h.ready other hother).2.2.2 hstate)
  pair hpair := (h.pair hpair).append _
  decided := h.decided.append _
  finalized receipt hreceipt := (h.finalized receipt hreceipt).append _
  clean hlive hstored hundecided fault hmem := by
    apply h.clean hlive hstored hundecided fault
    rcases mem_append.mp hmem with hmem | hmem
    · exact hmem
    · cases mem_singleton.mp hmem

theorem Audit.together (h : Audit s) (hstate : s.state = .arming ∨ s.state = .resuming)
    (hall : s.allReady = true) : ReadyTogether s.notes := by
  obtain ⟨hmic, hsystem⟩ := Bool.and_eq_true_iff.mp hall
  refine ⟨s.acquisitionEpoch, fun leg => ?_⟩
  cases leg with
  | mic => exact (h.ready .mic hmic).2.2.2 hstate
  | system => exact (h.ready .system hsystem).2.2.2 hstate

/-- Recording begins with what is noted, and one update that is not the last. -/
theorem Audit.record (h : Audit s) (hidle : s.control = .idle) (hstate : s.state ≠ .terminal)
    (hready : ReadyTogether s.notes) (settings : Settings) (epoch now : UInt64) (hasPair : Bool)
    {update : MeetingCaptureUpdate} (hupdate : ¬ IsFinalized update) :
    Audit ((armStallWatchdog settings { s with hasPair := hasPair, state := .recording }
      epoch now).emit update) where
  ready leg _ := by
    refine ⟨nofun, nofun, ?_, fun hstate => by rcases hstate with h | h <;> cases h⟩
    change s.control.Acquired
    rw [hidle]
    trivial
  pair _ := hready
  decided := h.decided
  finalized receipt hreceipt := by
    rcases mem_append.mp hreceipt with hreceipt | hreceipt
    · exact h.finalized receipt hreceipt
    · rw [← mem_singleton.mp hreceipt] at hupdate
      exact absurd trivial hupdate
  clean _ hstored hundecided := h.clean hstate hstored hundecided

theorem Audit.markReady (h : Audit s) (hidle : s.control = .idle) (settings : Settings)
    (leg : MeetingCaptureLeg) (epoch now : UInt64) (opened : Except MeetingCaptureFault Unit) :
    Audit (s.markReady settings leg epoch now opened) := by
  unfold Coordinator.markReady
  dsimp only
  split
  · exact h
  · rename_i hactive
    obtain ⟨rfl, hstate⟩ := state_of_isActiveAcquisition (not_not.mp hactive)
    have hinsert := h.insertReady hidle (.inl hstate) leg
    split
    · exact hinsert
    · rename_i hall
      cases opened with
      | error fault => exact hinsert.fail fault
      | ok _ =>
        have hlive : (s.insertReady leg s.acquisitionEpoch).state ≠ .terminal := by
          change s.state ≠ .terminal
          rw [hstate]
          nofun
        exact hinsert.record hidle hlive (hinsert.together (.inl hstate) (not_not.mp hall)) _ _ _ _ id

theorem Audit.markResumed (h : Audit s) (hidle : s.control = .idle) (settings : Settings)
    (leg : MeetingCaptureLeg) (epoch now : UInt64) :
    Audit (s.markResumed settings leg epoch now) := by
  unfold Coordinator.markResumed
  dsimp only
  split
  · exact h
  · rename_i hactive
    obtain ⟨rfl, hstate⟩ := state_of_isActiveAcquisition (not_not.mp hactive)
    have hinsert := h.insertReady hidle (.inr hstate) leg
    split
    · exact hinsert
    · rename_i hall
      have hlive : (s.insertReady leg s.acquisitionEpoch).state ≠ .terminal := by
        change s.state ≠ .terminal
        rw [hstate]
        nofun
      exact hinsert.record hidle hlive (hinsert.together (.inr hstate) (not_not.mp hall)) _ _ _
        (s.insertReady leg s.acquisitionEpoch).hasPair id

theorem Audit.checkForStalledAudio (h : Audit s) (settings : Settings) (epoch now : UInt64) :
    Audit (s.checkForStalledAudio settings epoch now) := by
  unfold Coordinator.checkForStalledAudio
  split
  · exact h
  · rename_i hactive
    split
    · exact h
    · split
      · exact h
      · refine (h.toKept.note (.fault _)).fail ?_ _
        change s.state ≠ .terminal
        rw [(state_of_isActiveAcquisition (not_not.mp hactive).2).2]
        nofun

theorem Audit.runJob (h : Audit s) (hidle : s.control = .idle) (settings : Settings)
    (answers : Answers) (job : Job) : Audit (s.runJob settings answers job) := by
  cases job with
  | fail fault => exact h.fail fault
  | finish ending => exact h.beginFinish hidle ending
  | markReady leg epoch => exact h.markReady hidle settings leg epoch _ _
  | markResumed leg epoch => exact h.markResumed hidle settings leg epoch _
  | recordBlockDelivery =>
    unfold Coordinator.runJob Coordinator.recordBlockDelivery
    dsimp only
    split
    · exact h
    · exact ⟨⟨h.ready, h.pair, h.decided, h.finalized⟩, h.clean⟩

/-- The job under way keeps the audit, section by section. -/
theorem Audit.advance (h : Audit s) (ho : Ordered s) (answers : Answers) :
    Audit (s.advance answers) := by
  obtain ⟨hkept, hclean⟩ := h
  have hfits := ho.fits
  have hdecided := hkept.decided
  unfold Coordinator.advance
  cases hcontrol : s.control with
  | idle => exact ⟨hkept, hclean⟩
  | invalidating =>
    rw [hcontrol] at hfits hclean
    change s.state = .suspending at hfits
    refine ⟨⟨fun leg hleg => ?_, hkept.pair, trivial, hkept.finalized⟩, hclean⟩
    obtain ⟨hpaused, hsuspended, -, -⟩ := hkept.ready leg hleg
    refine ⟨hpaused, hsuspended, trivial, fun hstate => ?_⟩
    have hacquiring : s.state = .arming ∨ s.state = .resuming := hstate
    rw [hfits] at hacquiring
    rcases hacquiring with h | h <;> cases h
  | releasing =>
    rw [hcontrol] at hfits hclean
    change s.state = .suspending at hfits
    refine ⟨⟨nofun, hkept.pair, trivial, fun receipt hreceipt => ?_⟩, fun _ hstored _ => ?_⟩
    · rcases mem_append.mp hreceipt with hreceipt | hreceipt
      · exact hkept.finalized receipt hreceipt
      · cases mem_singleton.mp hreceipt
    · exact hclean (by rw [hfits]; nofun) hstored trivial
  | acquiring =>
    rw [hcontrol] at hclean
    refine ⟨⟨fun leg hleg => ?_, hkept.pair, trivial, hkept.finalized⟩, hclean⟩
    -- no leg is ready before its acquisition
    have hacquired := (hkept.ready leg hleg).2.2.1
    rw [hcontrol] at hacquired
    cases hacquired
  | starting resume leg =>
    rw [hcontrol] at hfits hclean
    have hready : ∀ control : Control, control.Acquired → control.Decided s.notes →
        Kept { s with control := control } := by
      intro control hacquired hdecided
      refine ⟨fun leg hleg => ?_, hkept.pair, hdecided, hkept.finalized⟩
      obtain ⟨hpaused, hsuspended, -, hnoted⟩ := hkept.ready leg hleg
      exact ⟨hpaused, hsuspended, hacquired, hnoted⟩
    dsimp only
    cases answers.started with
    | error fault =>
      refine Kept.fail (s := { s.note (.fault fault) with control := .idle })
        ((hready .idle trivial trivial).note (.fault fault)) ?_ fault
      change s.state = _ at hfits
      change s.state ≠ .terminal
      rw [hfits]
      cases resume <;> nofun
    | ok _ =>
      cases leg with
      | mic | system => exact ⟨hready _ trivial trivial, hclean⟩
  | stopping leg =>
    rw [hcontrol] at hclean
    have hready : ∀ leg, s.readyLegs leg = true → s.state ≠ .paused ∧ s.state ≠ .suspended ∧ True ∧
        (s.state = .arming ∨ s.state = .resuming → Note.ready leg s.acquisitionEpoch ∈ s.notes) := by
      intro leg hleg
      obtain ⟨hpaused, hsuspended, -, hnoted⟩ := hkept.ready leg hleg
      exact ⟨hpaused, hsuspended, trivial, hnoted⟩
    cases leg with
    | mic | system => exact ⟨⟨hready, hkept.pair, trivial, hkept.finalized⟩, hclean⟩
  | deciding ending =>
    rw [hcontrol] at hfits hclean
    change s.state = .stopping at hfits
    have hnoted := hkept.note .decided
    refine ⟨⟨fun leg hleg => ?_, hnoted.pair, ?_, hnoted.finalized⟩, fun _ _ => nofun⟩
    · obtain ⟨hpaused, hsuspended, -, hmem⟩ := hnoted.ready leg hleg
      exact ⟨hpaused, hsuspended, trivial, hmem⟩
    · -- the decision is sound: nothing is stored, and the pair was made when both were ready
      change Control.Decided (s.notes ++ [.decided])
        (.finishing ending (ending.failure.or s.storedFault) s.hasPair)
      cases hpair : s.hasPair with
      | false => cases ending.failure.or s.storedFault <;> trivial
      | true =>
        cases hfault : ending.failure.or s.storedFault with
        | some => trivial
        | none =>
          obtain ⟨hfailure, hstored⟩ := Option.or_eq_none_iff.mp hfault
          have hquiet := hclean (by rw [hfits]; nofun) hstored hfailure
          exact ⟨s.notes, [], rfl, hquiet, hkept.pair hpair⟩
  | finishing ending terminalFault hasPair =>
    rw [hcontrol] at hfits hdecided
    have hclose : ∀ fault receipt, Control.Decided s.notes (.closing ending fault receipt) →
        Audit { s with control := .closing ending fault receipt } := by
      intro fault receipt hsound
      refine ⟨⟨fun leg hleg => ?_, hkept.pair, hsound, hkept.finalized⟩, fun _ _ => nofun⟩
      obtain ⟨hpaused, hsuspended, -, hnoted⟩ := hkept.ready leg hleg
      exact ⟨hpaused, hsuspended, trivial, hnoted⟩
    dsimp only
    cases hasPair with
    | false => exact hclose _ _ (by cases terminalFault <;> trivial)
    | true =>
      rw [if_pos rfl]
      cases answers.finished with
      | ok =>
        apply hclose
        cases terminalFault with
        | none => exact hdecided
        | some => trivial
      | error => exact hclose _ _ (by cases terminalFault <;> trivial)
  | closing ending terminalFault receipt =>
    rw [hcontrol] at hdecided
    refine ⟨⟨fun _ _ => ?_, nofun, trivial, fun last hlast => ?_⟩, fun hstate => absurd rfl hstate⟩
    · exact ⟨nofun, nofun, trivial, fun hstate => by rcases hstate with h | h <;> cases h⟩
    · rcases mem_append.mp hlast with hlast | hlast
      · exact hkept.finalized last hlast
      · have hlast := mem_singleton.mp hlast
        have hfinalized : IsFinalized (terminalUpdate ending terminalFault receipt) := by
          rw [← hlast]
          trivial
        obtain ⟨rfl, hreceipt⟩ := terminalUpdate_eq_finalized hfinalized
        obtain ⟨_, rfl⟩ := Option.isSome_iff_exists.mp hreceipt
        exact hdecided

theorem Audit.step (h : Audit s) (ho : Ordered s) (settings : Settings) (step : Step) :
    Audit (s.step settings step) := by
  cases step with
  | activate => exact ifIdle_cases Audit h fun hidle => h.activate hidle
  | suspend => exact ifIdle_cases Audit h fun hidle => h.suspend hidle
  | resume => exact ifIdle_cases Audit h fun hidle => h.resume hidle
  | stop | interrupt | abort => exact ifIdle_cases Audit h fun hidle => h.beginFinish hidle _
  | job index answers =>
    unfold Coordinator.step
    dsimp only
    split
    · exact h
    · rename_i job _
      apply ifIdle_cases Audit h
      intro hidle
      exact Audit.runJob (s := { s with jobs := s.jobs.eraseIdx index })
        ⟨⟨h.ready, h.pair, h.decided, h.finalized⟩, h.clean⟩ hidle settings answers job
  | tick epoch now => exact ifIdle_cases Audit h fun _ => h.checkForStalledAudio settings epoch now
  | advance answers => exact h.advance ho answers
  | receive leg epoch data => exact (Callback.receive s leg epoch data).audit h
  | sourceFault leg epoch fault => exact (Callback.recordSource s leg epoch fault).audit h
  | writerFault fault => exact (Callback.record s fault).audit h
  | thread index accepted =>
    unfold Coordinator.step
    dsimp only
    split
    · exact h
    · exact (Callback.land _ accepted _).audit ⟨⟨h.ready, h.pair, h.decided, h.finalized⟩, h.clean⟩

end Audit

/-! ## What a writer is given -/

/-- A block that begins now with this epoch is taken. -/
def Admits (s : Coordinator) (leg : MeetingCaptureLeg) (epoch : UInt64) : Prop :=
  s.acquisitionEpoch = epoch ∧
    (s.state = .recording ∨ (s.state = .stopping ∧ s.stopDrainingLegs leg = true))

/-- A block that was taken when its `receive` began. -/
def Arrival.InTime (arrival : Arrival) : Prop :=
  arrival.currentEpoch = arrival.epoch ∧
    (arrival.state = .recording ∨ (arrival.state = .stopping ∧ arrival.draining = true))

structure Timely (s : Coordinator) : Prop where
  flights : ∀ arrival hasPair, Flight.append arrival hasPair ∈ s.flights → arrival.InTime
  written : ∀ arrival ∈ s.written, arrival.InTime

/-- The control queue gives no writer a block. -/
structure Apart (s t : Coordinator) : Prop where
  flights : t.flights = s.flights
  written : t.written = s.written

section Timely

variable {s t : Coordinator}

theorem Apart.timely (h : Apart s t) (hs : Timely s) : Timely t where
  flights := by
    rw [h.flights]
    exact hs.flights
  written := by
    rw [h.written]
    exact hs.written

theorem apart_beginFinish (s : Coordinator) (ending : Ending) : Apart s (s.beginFinish ending) := by
  unfold Coordinator.beginFinish
  split <;> exact ⟨rfl, rfl⟩

theorem apart_fail (s : Coordinator) (fault : MeetingCaptureFault) : Apart s (s.fail fault) := by
  unfold Coordinator.fail
  split
  · exact ⟨rfl, rfl⟩
  · exact apart_beginFinish s _

theorem apart_activate (s : Coordinator) : Apart s s.activate := by
  unfold Coordinator.activate
  split
  · exact ⟨rfl, rfl⟩
  · exact apart_fail s _

theorem apart_resume (s : Coordinator) : Apart s s.resume := by
  unfold Coordinator.resume
  split
  · exact ⟨rfl, rfl⟩
  · exact apart_fail s _

theorem apart_suspend (s : Coordinator) : Apart s s.suspend := by
  unfold Coordinator.suspend
  split <;> exact ⟨rfl, rfl⟩

theorem apart_checkForStalledAudio (settings : Settings) (s : Coordinator) (epoch now : UInt64) :
    Apart s (s.checkForStalledAudio settings epoch now) := by
  unfold Coordinator.checkForStalledAudio
  split
  · exact ⟨rfl, rfl⟩
  · split
    · exact ⟨rfl, rfl⟩
    · split
      · exact ⟨rfl, rfl⟩
      · exact ⟨(apart_fail _ _).flights, (apart_fail _ _).written⟩

theorem apart_runJob (settings : Settings) (s : Coordinator) (answers : Answers) (job : Job) :
    Apart s (s.runJob settings answers job) := by
  cases job with
  | fail fault => exact apart_fail s fault
  | finish ending => exact apart_beginFinish s ending
  | markReady =>
    unfold Coordinator.runJob Coordinator.markReady
    dsimp only
    split
    · exact ⟨rfl, rfl⟩
    · split
      · exact ⟨rfl, rfl⟩
      · cases answers.opened with
        | error => exact ⟨(apart_fail _ _).flights, (apart_fail _ _).written⟩
        | ok _ => exact ⟨rfl, rfl⟩
  | markResumed =>
    unfold Coordinator.runJob Coordinator.markResumed
    dsimp only
    split
    · exact ⟨rfl, rfl⟩
    · split <;> exact ⟨rfl, rfl⟩
  | recordBlockDelivery =>
    unfold Coordinator.runJob Coordinator.recordBlockDelivery
    dsimp only
    split <;> exact ⟨rfl, rfl⟩

theorem apart_advance (s : Coordinator) (answers : Answers) : Apart s (s.advance answers) := by
  unfold Coordinator.advance
  cases s.control with
  | idle | invalidating | releasing | acquiring => exact ⟨rfl, rfl⟩
  | starting =>
    dsimp only
    cases answers.started with
    | error => exact ⟨(apart_fail _ _).flights, (apart_fail _ _).written⟩
    | ok _ => exact ⟨rfl, rfl⟩
  | stopping | deciding => exact ⟨rfl, rfl⟩
  | finishing =>
    dsimp only
    split
    · cases answers.finished <;> exact ⟨rfl, rfl⟩
    · exact ⟨rfl, rfl⟩
  | closing => exact ⟨rfl, rfl⟩

theorem Timely.ifIdle (h : Timely s) {next : Coordinator} (hnext : Apart s next) :
    Timely (s.ifIdle next) :=
  ifIdle_cases Timely h fun _ => hnext.timely h

theorem Timely.fly (h : Timely s) {flight : Flight}
    (hflight : ∀ arrival hasPair, flight = .append arrival hasPair → arrival.InTime) :
    Timely (s.fly flight) where
  flights arrival hasPair harrival := by
    rcases mem_append.mp harrival with harrival | harrival
    · exact h.flights arrival hasPair harrival
    · exact hflight arrival hasPair (mem_singleton.mp harrival).symm
  written := h.written

theorem Timely.schedule (h : Timely s) (job : Job) : Timely (s.schedule job) :=
  ⟨h.flights, h.written⟩

/-- `receive` puts a block in flight only where it admits it. -/
theorem receive_flights (s : Coordinator) (leg : MeetingCaptureLeg) (epoch : UInt64) (data : Bytes)
    (h : ¬ s.Admits leg epoch) : (s.receive leg epoch data).flights = s.flights := by
  unfold Coordinator.receive
  dsimp only
  split
  · rfl
  · split
    · rfl
    · rename_i hepoch
      split
      · rfl
      · rfl
      · rename_i hstate
        exact absurd ⟨not_not.mp hepoch, .inl hstate⟩ h
      · rename_i hstate
        split
        · rename_i hdraining
          exact absurd ⟨not_not.mp hepoch, .inr ⟨hstate, hdraining⟩⟩ h
        · rfl
      all_goals rfl

theorem Timely.receive (h : Timely s) (leg : MeetingCaptureLeg) (epoch : UInt64) (data : Bytes) :
    Timely (s.receive leg epoch data) := by
  unfold Coordinator.receive
  dsimp only
  split
  · exact h
  · split
    · exact h
    · rename_i hepoch
      split
      · exact h.schedule _
      · exact h.schedule _
      · rename_i hstate
        refine (h.schedule _).fly fun arrival hasPair hflight => ?_
        cases hflight
        exact ⟨not_not.mp hepoch, .inl hstate⟩
      · rename_i hstate
        split
        · rename_i hdraining
          apply h.fly
          intro arrival hasPair hflight
          cases hflight
          exact ⟨not_not.mp hepoch, .inr ⟨hstate, hdraining⟩⟩
        · exact h
      all_goals exact h

theorem Timely.store (h : Timely s) (fault : MeetingCaptureFault) : Timely (s.store fault) := by
  unfold Coordinator.store
  dsimp only
  split <;> exact ⟨h.flights, h.written⟩

theorem Timely.record (h : Timely s) (fault : MeetingCaptureFault) : Timely (s.record fault) := by
  unfold Coordinator.record
  split
  · exact h
  · exact h.store fault

theorem Timely.recordSource (h : Timely s) (leg : MeetingCaptureLeg) (epoch : UInt64)
    (fault : MeetingCaptureFault) : Timely (s.recordSource leg epoch fault) := by
  unfold Coordinator.recordSource
  split
  · split
    · exact ⟨h.flights, h.written⟩
    · exact h.fly fun _ _ => nofun
  · exact h.fly fun _ _ => nofun

theorem Timely.land (h : Timely s) (accepted : Bool) (flight : Flight)
    (hflight : ∀ arrival hasPair, flight = .append arrival hasPair → arrival.InTime) :
    Timely (s.land accepted flight) := by
  cases flight with
  | append arrival hasPair =>
    unfold Coordinator.land
    dsimp only
    split
    · exact h.fly fun _ _ => nofun
    · split
      · refine ⟨h.flights, fun other hother => ?_⟩
        rcases mem_append.mp hother with hother | hother
        · exact h.written other hother
        · rw [mem_singleton.mp hother]
          exact hflight arrival hasPair rfl
      · exact h.fly fun _ _ => nofun
  | record fault => exact h.record fault
  | configuration =>
    unfold Coordinator.land
    dsimp only
    split
    · exact h
    · exact h.fly fun _ _ => nofun
  | source leg epoch fault =>
    unfold Coordinator.land
    dsimp only
    split
    · exact h.store fault
    · exact h

theorem Timely.step (h : Timely s) (settings : Settings) (step : Step) :
    Timely (s.step settings step) := by
  cases step with
  | activate => exact h.ifIdle (apart_activate s)
  | suspend => exact h.ifIdle (apart_suspend s)
  | resume => exact h.ifIdle (apart_resume s)
  | stop | interrupt | abort => exact h.ifIdle (apart_beginFinish s _)
  | job index answers =>
    unfold Coordinator.step
    dsimp only
    split
    · exact h
    · exact h.ifIdle ⟨(apart_runJob settings _ answers _).flights,
        (apart_runJob settings _ answers _).written⟩
  | tick epoch now => exact h.ifIdle (apart_checkForStalledAudio settings s epoch now)
  | advance answers => exact (apart_advance s answers).timely h
  | receive leg epoch data => exact h.receive leg epoch data
  | sourceFault leg epoch fault => exact h.recordSource leg epoch fault
  | writerFault fault => exact h.record fault
  | thread index accepted =>
    unfold Coordinator.step
    dsimp only
    split
    · exact h
    · rename_i flight hget
      refine Timely.land (s := { s with flights := s.flights.eraseIdx index })
        ⟨fun arrival hasPair harrival => ?_, h.written⟩ accepted flight fun arrival hasPair heq => ?_
      · exact h.flights arrival hasPair (mem_of_mem_eraseIdx harrival)
      · rw [heq] at hget
        exact h.flights arrival hasPair (mem_of_getElem? hget)

end Timely

/-! ## Faults and ticks of another acquisition -/

/-- The same take, but for threads between two sections. -/
def SameTake (s t : Coordinator) : Prop := t = { s with flights := t.flights }

/-- A thread on its way to store a fault of a source. -/
def Flight.IsSourceFault (epoch : UInt64) : Flight → Prop
  | .configuration _ other _ | .source _ other _ => other = epoch
  | _ => False

section Stale

variable {s : Coordinator} {epoch : UInt64}

theorem sameTake_recordSource (hstale : epoch ≠ s.acquisitionEpoch) (leg : MeetingCaptureLeg)
    (fault : MeetingCaptureFault) : SameTake s (s.recordSource leg epoch fault) := by
  unfold Coordinator.recordSource
  split
  · rw [if_neg (fun h => hstale h.1.symm)]
    rfl
  · rfl

theorem sameTake_thread (settings : Settings) (hstale : epoch ≠ s.acquisitionEpoch) {index : Nat}
    {flight : Flight} (hget : s.flights[index]? = some flight) (hsource : flight.IsSourceFault epoch)
    (accepted : Bool) : SameTake s (s.step settings (.thread index accepted)) := by
  unfold Coordinator.step
  dsimp only
  rw [hget]
  cases flight with
  | append | record => cases hsource
  | configuration _ other | source _ other =>
    change other = epoch at hsource
    subst hsource
    unfold Coordinator.land
    dsimp only
    rw [if_neg (fun h => hstale h.1.symm)]
    rfl

theorem checkForStalledAudio_stale (settings : Settings) (hstale : epoch ≠ s.acquisitionEpoch)
    (now : UInt64) : s.checkForStalledAudio settings epoch now = s := by
  unfold Coordinator.checkForStalledAudio
  exact if_pos fun h => hstale (state_of_isActiveAcquisition h.2).1.symm

end Stale

/-! ## Every interleaving -/

structure Sound (s : Coordinator) : Prop where
  ordered : Ordered s
  audit : Audit s
  timely : Timely s

theorem sound_initial : Sound initial where
  ordered := ⟨⟨nofun, nofun⟩, ⟨rfl, rfl⟩, trivial⟩
  audit := ⟨⟨nofun, nofun, trivial, nofun⟩, fun _ _ _ _ => nofun⟩
  timely := ⟨nofun, nofun⟩

theorem Sound.step {s : Coordinator} (h : Sound s) (settings : Settings) (step : Step) :
    Sound (s.step settings step) :=
  ⟨h.ordered.step settings step, h.audit.step h.ordered settings step, h.timely.step settings step⟩

theorem Sound.run {s : Coordinator} (h : Sound s) (settings : Settings) (steps : List Step) :
    Sound (s.run settings steps) := by
  induction steps generalizing s with
  | nil => exact h
  | cons step steps ih => exact ih (h.step settings step)

/-- Whatever the interleaving: the updates keep to their order, a finalized take was
sound when it was decided, a writer accepted only blocks that arrived in time, and
from the state reached neither a late block nor a fault or a tick with an epoch that
is not current does anything to the take. -/
theorem run_sound (settings : Settings) (steps : List Step) :
    (UnderWay (run settings initial steps).updates ∨ Over (run settings initial steps).updates) ∧
    (∀ receipt, MeetingCaptureUpdate.finalized receipt ∈ (run settings initial steps).updates →
      SoundDecision (run settings initial steps).notes) ∧
    (∀ arrival ∈ (run settings initial steps).written, arrival.InTime) ∧
    (∀ leg epoch data, ¬ (run settings initial steps).Admits leg epoch →
      ((run settings initial steps).step settings (.receive leg epoch data)).flights =
        (run settings initial steps).flights) ∧
    ∀ epoch, epoch ≠ (run settings initial steps).acquisitionEpoch →
      (∀ leg fault, SameTake (run settings initial steps)
        ((run settings initial steps).step settings (.sourceFault leg epoch fault))) ∧
      (∀ index accepted flight, (run settings initial steps).flights[index]? = some flight →
        flight.IsSourceFault epoch → SameTake (run settings initial steps)
          ((run settings initial steps).step settings (.thread index accepted))) ∧
      ∀ now, (run settings initial steps).step settings (.tick epoch now) =
        run settings initial steps := by
  have hsound := sound_initial.run settings steps
  generalize run settings initial steps = s at hsound ⊢
  refine ⟨hsound.ordered.emitted.allowed, hsound.audit.finalized, hsound.timely.written, ?_, ?_⟩
  · intro leg epoch data hlate
    exact receive_flights s leg epoch data hlate
  · intro epoch hstale
    refine ⟨?_, ?_, ?_⟩
    · intro leg fault
      exact sameTake_recordSource hstale leg fault
    · intro index accepted flight hget hsource
      exact sameTake_thread settings hstale hget hsource accepted
    · intro now
      change s.ifIdle (s.checkForStalledAudio settings epoch now) = s
      rw [checkForStalledAudio_stale settings hstale now]
      unfold ifIdle
      split <;> rfl

/-! A take with one pause. -/

def answers : Answers := ⟨.ok (), .ok (), .ok ⟨2, 2, none⟩, 0⟩

/-- Both legs are acquired in an epoch, deliver a first block and are ready. -/
def acquire (epoch : UInt64) : List Step :=
  [.advance answers, .advance answers, .advance answers,
    .receive .mic epoch [1, 0], .receive .system epoch [1, 0], .job 0 answers, .job 0 answers]

def paused : List Step :=
  .activate :: acquire 1 ++ [.receive .mic 1 [2, 0], .job 0 answers, .thread 0 true, .suspend,
    .advance answers, .advance answers, .sourceFault .mic 1 ⟨"late", none, ""⟩, .thread 0 true,
    .resume] ++ acquire 3 ++ [.stop] ++ List.replicate 5 (.advance answers)

theorem run_sound_paused :
    (run ⟨10, false⟩ initial paused).updates =
        [.recording, .suspended, .resumed, .finalized ⟨2, 2, none⟩] ∧
      SoundDecision (run ⟨10, false⟩ initial paused).notes := by
  have hupdates : (run ⟨10, false⟩ initial paused).updates =
      [.recording, .suspended, .resumed, .finalized ⟨2, 2, none⟩] := by
    decide
  have hsound := (run_sound ⟨10, false⟩ paused).2.1 ⟨2, 2, none⟩
  rw [hupdates] at hsound
  exact ⟨hupdates, hsound (by simp)⟩

end YawnApp.Capture.Coordinator
