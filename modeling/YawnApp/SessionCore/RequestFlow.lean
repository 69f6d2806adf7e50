import YawnApp.SessionCore.Supervision

set_option autoImplicit false

/-!
# What flows from the dispatcher to a call

Of the three threads, the locks and the times, little matters for what a call
is given: the request that is pending, the outputs that are queued or about to
be, whether the dispatcher is past its last frame, and the log.  `RequestFlow`
is that much of a worker and `FlowStep` what the dispatcher does to it.

Between two calls the flow is `Quiet`: nothing is pending and nothing is under
way, so that a call begins with nothing of the call before.  In a call it is
`Live`: the outputs accepted since the registration are, in order, those that
were observed, the one the call holds, those that are queued and the one about
to be, and the result is the last of them.
-/

namespace YawnApp.SessionCore

open YawnApp.Foundation List

/-! ## Reading the log -/

namespace SupervisionEvent

/-- The entry begins or ends a call. -/
def Boundary : SupervisionEvent → Prop
  | .registered _ => True
  | .returned _ _ => True
  | _ => False

instance : DecidablePred Boundary := fun e => by
  cases e <;> unfold Boundary <;> infer_instance

theorem not_boundary_read (outcome : Except ReadError (List UInt8)) : ¬ Boundary (.read outcome) :=
  not_false

theorem not_boundary_accepted (output : WorkerOutput) (dispatched : Dispatched) :
    ¬ Boundary (.accepted output dispatched) := not_false

theorem not_boundary_observed (id : Uuid) (dispatched : Dispatched) :
    ¬ Boundary (.observed id dispatched) := not_false

def IsRead : SupervisionEvent → Prop
  | .read _ => True
  | _ => False

instance : DecidablePred IsRead := fun e => by
  cases e <;> unfold IsRead <;> infer_instance

/-- The caller makes the entry. -/
def OfCaller : SupervisionEvent → Prop
  | .read _ => False
  | .accepted _ _ => False
  | _ => True

def read? : SupervisionEvent → Option (Except ReadError (List UInt8))
  | .read outcome => some outcome
  | _ => none

/-- The frame that was parsed. -/
def frame? : SupervisionEvent → Option (List UInt8)
  | .read (.ok frame) => if frame = [] then none else some frame
  | _ => none

def accepted? : SupervisionEvent → Option (WorkerOutput × Dispatched)
  | .accepted output dispatched => some (output, dispatched)
  | _ => none

def observed? : SupervisionEvent → Option Dispatched
  | .observed _ dispatched => some dispatched
  | _ => none

def registered? : SupervisionEvent → Option Uuid
  | .registered id => some id
  | _ => none

/-- The caller neither reads nor accepts a frame. -/
theorem OfCaller.silent {e : SupervisionEvent} (h : OfCaller e) :
    ¬ IsRead e ∧ read? e = none ∧ accepted? e = none := by
  cases e with
  | read | accepted => exact h.elim
  | _ => exact ⟨fun h => h, rfl, rfl⟩

end SupervisionEvent

open SupervisionEvent

abbrev SupervisionLog := List SupervisionEvent

/-- What the reads gave, in order. -/
def readsIn (log : SupervisionLog) : List (Except ReadError (List UInt8)) := log.filterMap read?

/-- The frames that were parsed, in order. -/
def framesIn (log : SupervisionLog) : List (List UInt8) := log.filterMap frame?

/-- The frames that the tracker accepted, with what it made of them, in order. -/
def acceptedIn (log : SupervisionLog) : List (WorkerOutput × Dispatched) := log.filterMap accepted?

/-- What the callbacks were given, in order. -/
def observedIn (log : SupervisionLog) : List Dispatched := log.filterMap observed?

/-- The requests that were registered, in order. -/
def registeredIn (log : SupervisionLog) : List Uuid := log.filterMap registered?

/-- The call of `id` is under way, and this is the log since its registration. -/
def Under (log : SupervisionLog) (id : Uuid) (since : SupervisionLog) : Prop :=
  lastSection Boundary log = some (.registered id, since)

/-- A call failed whose request had been registered. -/
def Failed (log : SupervisionLog) : Prop :=
  ∃ earlier id since error later,
    log = earlier ++ .returned id (.error error) :: later ∧ Under earlier id since

/-- What is queued for a frame. -/
def WorkerOutput.Yields : WorkerOutput → Dispatched → Prop
  | .progress frame, .progress found => found = frame
  | .transcriptionProgress frame, .measured m =>
    m.meetingId = frame.meetingId ∧
      measuredAmount frame.audioSecondsDone = some m.audioSecondsDone ∧
      measuredAmount frame.audioSecondsTotal = some m.audioSecondsTotal
  | .result final, .result found => found = final
  | _, _ => False

/-- The output is that of the frame read last, and it was not accepted before. -/
def FromLastFrame (text : WorkerText) (log : SupervisionLog) (output : WorkerOutput) : Prop :=
  ∃ frame since, lastSection IsRead log = some (.read (.ok frame), since) ∧
    parseOutput text frame = .ok output ∧ acceptedIn since = []

/-- The frames accepted since the registration of `id` are frames of `id`. -/
def Own (id : Uuid) (since : SupervisionLog) : Prop :=
  ∀ a ∈ acceptedIn since, a.1.requestId = id ∧ a.1.Yields a.2

/-- What an entry promises about the log before it. -/
def SafeEvent (text : WorkerText) (earlier : SupervisionLog) : SupervisionEvent → Prop
  | .read _ => True
  /- A frame is accepted once, for the call under way. -/
  | .accepted output dispatched => output.Yields dispatched ∧ FromLastFrame text earlier output ∧
      ∃ since, Under earlier output.requestId since
  /- After a failure no request is registered. -/
  | .registered _ => ¬ Failed earlier
  /- A callback is given the next frame that was accepted for its call. -/
  | .observed id dispatched => ¬ Failed earlier ∧ (∀ final, dispatched ≠ .result final) ∧
      ∃ since, Under earlier id since ∧ Own id since ∧
        observedIn since ++ [dispatched] <+: (acceptedIn since).map Prod.snd
  /- A result is returned that was accepted for its call, after all that was
  accepted before it was given to the callbacks. -/
  | .returned id (.ok final) => ¬ Failed earlier ∧ final.requestId = id ∧
      ∃ since, Under earlier id since ∧ Own id since ∧
        (acceptedIn since).map Prod.snd = observedIn since ++ [.result final]
  | .returned _ (.error _) => True

/-! ## One entry more -/

section Concat

variable {log : SupervisionLog} {e : SupervisionEvent} {id : Uuid} {since : SupervisionLog}

@[simp] theorem acceptedIn_concat (log : SupervisionLog) (e : SupervisionEvent) :
    acceptedIn (log ++ [e]) = acceptedIn log ++ (accepted? e).toList := by
  unfold acceptedIn
  rw [filterMap_append]
  cases h : accepted? e <;> simp [h]

@[simp] theorem observedIn_concat (log : SupervisionLog) (e : SupervisionEvent) :
    observedIn (log ++ [e]) = observedIn log ++ (observed? e).toList := by
  unfold observedIn
  rw [filterMap_append]
  cases h : observed? e <;> simp [h]

@[simp] theorem readsIn_concat (log : SupervisionLog) (e : SupervisionEvent) :
    readsIn (log ++ [e]) = readsIn log ++ (read? e).toList := by
  unfold readsIn
  rw [filterMap_append]
  cases h : read? e <;> simp [h]

theorem Under.concat (h : Under log id since) (he : ¬ Boundary e) :
    Under (log ++ [e]) id (since ++ [e]) := lastSection_concat_of_some h he

theorem under_registered (log : SupervisionLog) (id : Uuid) :
    Under (log ++ [.registered id]) id [] := lastSection_concat_of_opens trivial

/-- No call is under way after one has returned. -/
theorem not_under_returned (answer : Except SupervisionError WorkerResult) (other : Uuid) :
    ¬ Under (log ++ [.returned id answer]) other since := by
  unfold Under
  rw [lastSection_concat_of_opens trivial]
  simp

/-- An entry inside a call leaves it under way. -/
theorem under_concat (he : ¬ Boundary e) :
    Under (log ++ [e]) id since → ∃ before, Under log id before ∧ since = before ++ [e] := by
  intro h
  unfold Under at h
  rw [lastSection_concat_of_not he, Option.map_eq_some_iff] at h
  obtain ⟨⟨opening, before⟩, hlast, heq⟩ := h
  cases heq
  exact ⟨before, hlast, rfl⟩

theorem not_failed_nil : ¬ Failed [] := by
  rintro ⟨earlier, id, since, error, later, h, -⟩
  simp at h

theorem Failed.append (h : Failed log) (later : SupervisionLog) : Failed (log ++ later) := by
  obtain ⟨earlier, id, since, error, rest, rfl, hunder⟩ := h
  exact ⟨earlier, id, since, error, rest ++ later, by simp, hunder⟩

/-- A log that fails with its last entry ends in the error of the call under
way. -/
theorem failed_concat : Failed (log ++ [e]) →
    Failed log ∨ ∃ id since error, e = .returned id (.error error) ∧ Under log id since := by
  rintro ⟨earlier, id, since, error, later, hsplit, hunder⟩
  rcases eq_nil_or_concat later with rfl | ⟨rest, last, rfl⟩
  · obtain ⟨rfl, hlast⟩ := append_inj' hsplit rfl
    cases hlast
    exact .inr ⟨id, since, error, rfl, hunder⟩
  · rw [concat_eq_append, ← cons_append, ← append_assoc] at hsplit
    obtain ⟨rfl, -⟩ := append_inj' hsplit rfl
    exact .inl ⟨earlier, id, since, error, rest, rfl, hunder⟩

/-- An entry that is no error leaves a log without a failure. -/
theorem not_failed_concat (h : ¬ Failed log) (he : ∀ id error, e ≠ .returned id (.error error)) :
    ¬ Failed (log ++ [e]) := by
  intro hfailed
  rcases failed_concat hfailed with hold | ⟨id, since, error, heq, -⟩
  · exact h hold
  · exact he id error heq

/-- What the caller does leaves the frame read last as it is. -/
theorem FromLastFrame.concat {text : WorkerText} {output : WorkerOutput}
    (h : FromLastFrame text log output) (he : OfCaller e) : FromLastFrame text (log ++ [e]) output := by
  obtain ⟨hread, -, haccepted⟩ := he.silent
  obtain ⟨frame, since, hlast, hparse, hsince⟩ := h
  refine ⟨frame, since ++ [e], lastSection_concat_of_some hlast hread, hparse, ?_⟩
  rw [acceptedIn_concat, hsince, haccepted]
  rfl

end Concat

/-! ## The flow -/

/-- What of a worker decides what a call is given. -/
structure RequestFlow where
  pending : Option Uuid
  queued : List Dispatched
  inHand : List Dispatched
  halted : Bool
  log : SupervisionLog

namespace RequestFlow

/-- What the dispatcher does to the flow. -/
inductive Next (text : WorkerText) (f : RequestFlow) : RequestFlow → Prop
  | moved (halted : Bool) (hhalted : f.halted = true → halted = true) (hinHand : f.inHand = []) :
    Next text f { f with inHand := [], halted := halted }
  | read (outcome : Except ReadError (List UInt8)) (halted : Bool) (hhalted : f.halted = false)
      (hinHand : f.inHand = []) :
    Next text f { f with inHand := [], halted := halted, log := f.log ++ [.read outcome] }
  | accepted {output : WorkerOutput} {dispatched : Dispatched} (pending : Option Uuid)
      (hhalted : f.halted = false) (hinHand : f.inHand = [])
      (hpending : f.pending = some output.requestId) (hyields : output.Yields dispatched)
      (hfrom : FromLastFrame text f.log output)
      (hnext : (∃ final, dispatched = .result final) ∧ pending = none ∨
        (∀ final, dispatched ≠ .result final) ∧ pending = f.pending) :
    Next text f { f with
      pending := pending
      inHand := [dispatched]
      halted := false
      log := f.log ++ [.accepted output dispatched] }
  | sent {dispatched : Dispatched} (hhalted : f.halted = false) (hinHand : f.inHand = [dispatched]) :
    Next text f { f with queued := f.queued ++ [dispatched], inHand := [], halted := false }
  /- The queue is full, or nobody receives any more. -/
  | dropped : Next text f { f with inHand := [], halted := true }

/-- Nothing is under way. -/
structure Quiet (f : RequestFlow) : Prop where
  pending : f.pending = none
  queued : f.queued = []
  inHand : f.inHand = []
  outside : ∀ id since, ¬ Under f.log id since
  alive : ¬ Failed f.log

/-- A call has failed, and nothing will be accepted any more. -/
structure Over (f : RequestFlow) : Prop where
  pending : f.pending = none
  failed : Failed f.log

/-- The call of `id` is to fail. -/
structure Failing (id : Uuid) (since : SupervisionLog) (f : RequestFlow) : Prop where
  under : Under f.log id since
  own : Own id since
  pending : ∀ p, f.pending = some p → p = id
  alive : ¬ Failed f.log

/-- The call of `id` goes on and holds what is in `held`. -/
structure Live (id : Uuid) (held : List Dispatched) (since : SupervisionLog) (f : RequestFlow) :
    Prop where
  under : Under f.log id since
  own : Own id since
  pending : ∀ p, f.pending = some p → p = id ∧ ∀ final, .result final ∉ (acceptedIn since).map Prod.snd
  finished : f.pending = none → ∃ before final, (acceptedIn since).map Prod.snd = before ++ [.result final] ∧
    final.requestId = id ∧ ∀ other, Dispatched.result other ∉ before
  flow : ∃ lost, observedIn since ++ held ++ f.queued ++ f.inHand ++ lost =
    (acceptedIn since).map Prod.snd ∧ (lost ≠ [] → f.halted = true)
  alive : ¬ Failed f.log

variable {text : WorkerText} {f g : RequestFlow} {id : Uuid} {since : SupervisionLog}
  {held : List Dispatched} {dispatched : Dispatched}

/-! ### The dispatcher -/

/-- The dispatcher makes no request pending. -/
theorem Next.pending_none (hnext : f.Next text g) (h : f.pending = none) : g.pending = none := by
  cases hnext with
  | accepted _ _ _ hpending =>
    rw [h] at hpending
    cases hpending
  | _ => exact h

theorem Quiet.next (h : f.Quiet) (hentries : Entries (SafeEvent text) f.log) (hnext : f.Next text g) :
    g.Quiet ∧ Entries (SafeEvent text) g.log := by
  cases hnext with
  | moved => exact ⟨⟨h.pending, h.queued, rfl, h.outside, h.alive⟩, hentries⟩
  | read outcome =>
    refine ⟨⟨h.pending, h.queued, rfl, fun id since hunder => ?_, ?_⟩, hentries.concat trivial⟩
    · obtain ⟨before, hbefore, -⟩ := under_concat (not_boundary_read outcome) hunder
      exact h.outside id before hbefore
    · exact not_failed_concat h.alive fun _ _ heq => by cases heq
  | accepted _ _ _ hpending =>
    rw [h.pending] at hpending
    cases hpending
  | sent _ hinHand =>
    rw [h.inHand] at hinHand
    cases hinHand
  | dropped => exact ⟨⟨h.pending, h.queued, rfl, h.outside, h.alive⟩, hentries⟩

theorem Over.next (h : f.Over) (hentries : Entries (SafeEvent text) f.log) (hnext : f.Next text g) :
    g.Over ∧ Entries (SafeEvent text) g.log := by
  cases hnext with
  | moved => exact ⟨⟨h.pending, h.failed⟩, hentries⟩
  | read => exact ⟨⟨h.pending, h.failed.append _⟩, hentries.concat trivial⟩
  | accepted _ _ _ hpending =>
    rw [h.pending] at hpending
    cases hpending
  | sent | dropped => exact ⟨⟨h.pending, h.failed⟩, hentries⟩

/-- What was accepted since is still that after an entry that accepts nothing. -/
theorem own_concat_of_not {e : SupervisionEvent} (h : Own id since) (he : accepted? e = none) :
    Own id (since ++ [e]) := by
  unfold Own
  rw [acceptedIn_concat, he, Option.toList_none, append_nil]
  exact h

theorem own_concat_accepted {output : WorkerOutput} (h : Own output.requestId since)
    (hyields : output.Yields dispatched) :
    Own output.requestId (since ++ [.accepted output dispatched]) := by
  unfold Own
  rw [acceptedIn_concat]
  intro a ha
  rcases mem_append.mp ha with hold | hnew
  · exact h a hold
  · cases mem_singleton.mp hnew
    exact ⟨rfl, hyields⟩

theorem Failing.next (h : f.Failing id since) (hentries : Entries (SafeEvent text) f.log)
    (hnext : f.Next text g) :
    (∃ since', g.Failing id since') ∧ Entries (SafeEvent text) g.log := by
  cases hnext with
  | moved => exact ⟨⟨since, h.under, h.own, h.pending, h.alive⟩, hentries⟩
  | read outcome =>
    refine ⟨⟨_, h.under.concat (not_boundary_read outcome), own_concat_of_not h.own rfl, h.pending, ?_⟩,
      hentries.concat trivial⟩
    exact not_failed_concat h.alive fun _ _ heq => by cases heq
  | accepted pending hhalted hinHand hpending hyields hfrom hnext =>
    obtain rfl := h.pending _ hpending
    refine ⟨⟨_, h.under.concat (not_boundary_accepted _ _), own_concat_accepted h.own hyields,
      fun p hp => ?_, ?_⟩, hentries.concat ⟨hyields, hfrom, since, h.under⟩⟩
    · rcases hnext with ⟨-, hnone⟩ | ⟨-, hsame⟩
      · cases hnone.symm.trans hp
      · exact h.pending p (hsame ▸ hp)
    · exact not_failed_concat h.alive fun _ _ heq => by cases heq
  | sent | dropped => exact ⟨⟨since, h.under, h.own, h.pending, h.alive⟩, hentries⟩

theorem Live.next (h : f.Live id held since) (hentries : Entries (SafeEvent text) f.log)
    (hnext : f.Next text g) :
    (∃ since', g.Live id held since') ∧ Entries (SafeEvent text) g.log := by
  obtain ⟨lost, hflow, hlost⟩ := h.flow
  cases hnext with
  | moved halted hhalted hinHand =>
    rw [hinHand] at hflow
    exact ⟨⟨since, h.under, h.own, h.pending, h.finished,
      ⟨lost, hflow, fun hne => hhalted (hlost hne)⟩, h.alive⟩, hentries⟩
  | read outcome halted hhalted hinHand =>
    have hnone : lost = [] := by
      by_contra hne
      exact absurd (hlost hne) (by simp [hhalted])
    have haccepted : acceptedIn (since ++ [.read outcome]) = acceptedIn since := by simp [accepted?]
    have hobserved : observedIn (since ++ [.read outcome]) = observedIn since := by simp [observed?]
    refine ⟨⟨_, h.under.concat (not_boundary_read outcome), own_concat_of_not h.own rfl, ?_, ?_,
      ⟨[], ?_, ?_⟩, ?_⟩, hentries.concat trivial⟩
    · rw [haccepted]
      exact h.pending
    · rw [haccepted]
      exact h.finished
    · rw [haccepted, hobserved, ← hflow, hinHand, hnone]
    · exact fun hne => absurd rfl hne
    · exact not_failed_concat h.alive fun _ _ heq => by cases heq
  | @accepted output dispatched pending hhalted hinHand hpending hyields hfrom hnext =>
    obtain ⟨rfl, hnoResult⟩ := h.pending _ hpending
    have hnone : lost = [] := by
      by_contra hne
      exact absurd (hlost hne) (by simp [hhalted])
    have haccepted : (acceptedIn (since ++ [.accepted output dispatched])).map Prod.snd =
        (acceptedIn since).map Prod.snd ++ [dispatched] := by simp [accepted?]
    have hobserved : observedIn (since ++ [.accepted output dispatched]) = observedIn since := by
      simp [observed?]
    refine ⟨⟨_, h.under.concat (not_boundary_accepted _ _), own_concat_accepted h.own hyields, ?_, ?_,
      ⟨[], ?_, ?_⟩, ?_⟩, hentries.concat ⟨hyields, hfrom, since, h.under⟩⟩
    · intro p hp
      rcases hnext with ⟨-, hnone⟩ | ⟨hother, hsame⟩
      · cases hnone.symm.trans hp
      · refine ⟨(h.pending p (hsame ▸ hp)).1, fun final hmem => ?_⟩
        rw [haccepted] at hmem
        rcases mem_append.mp hmem with hold | hnew
        · exact hnoResult final hold
        · exact hother final (mem_singleton.mp hnew).symm
    · intro hidle
      rcases hnext with ⟨⟨final, rfl⟩, -⟩ | ⟨-, hsame⟩
      · refine ⟨_, final, haccepted, ?_, hnoResult⟩
        cases output with
        | result => exact congrArg WorkerResult.requestId hyields
        | progress | transcriptionProgress => exact hyields.elim
      · rw [hsame, hpending] at hidle
        cases hidle
    · rw [haccepted, hobserved, ← hflow, hinHand, hnone]
      simp
    · exact fun hne => absurd rfl hne
    · exact not_failed_concat h.alive fun _ _ heq => by cases heq
  | @sent dispatched hhalted hinHand =>
    refine ⟨⟨since, h.under, h.own, h.pending, h.finished,
      ⟨lost, ?_, fun hne => (hhalted.symm.trans (hlost hne))⟩, h.alive⟩, hentries⟩
    rw [← hflow, hinHand]
    simp
  | dropped =>
    refine ⟨⟨since, h.under, h.own, h.pending, h.finished, ⟨f.inHand ++ lost, ?_, fun _ => rfl⟩,
      h.alive⟩, hentries⟩
    rw [← hflow]
    simp

/-! ### The caller -/

/-- The request of a call is registered. -/
theorem Quiet.register (h : f.Quiet) (hentries : Entries (SafeEvent text) f.log) (id : Uuid) :
    Live id [] [] { f with pending := some id, log := f.log ++ [.registered id] } ∧
      Entries (SafeEvent text) (f.log ++ [.registered id]) where
  left := {
    under := under_registered f.log id
    own := fun _ ha => absurd ha not_mem_nil
    pending := fun _ hp => ⟨(Option.some.inj hp).symm, fun _ => not_mem_nil⟩
    finished := fun hnone => by cases hnone
    flow := ⟨[], by simp [observedIn, acceptedIn, h.queued, h.inHand], fun hne => absurd rfl hne⟩
    alive := not_failed_concat h.alive fun _ _ heq => by cases heq }
  right := hentries.concat h.alive

/-- A call fails whose request was not registered. -/
theorem Quiet.refuse (h : f.Quiet) (hentries : Entries (SafeEvent text) f.log) (id : Uuid)
    (error : SupervisionError) :
    Quiet { f with log := f.log ++ [.returned id (.error error)] } ∧
      Entries (SafeEvent text) (f.log ++ [.returned id (.error error)]) := by
  refine ⟨⟨h.pending, h.queued, h.inHand, fun other since => not_under_returned _ other, ?_⟩,
    hentries.concat trivial⟩
  intro hfailed
  rcases failed_concat hfailed with hold | ⟨other, since, -, -, hunder⟩
  · exact h.alive hold
  · exact h.outside other since hunder

theorem Over.refuse (h : f.Over) (hentries : Entries (SafeEvent text) f.log) (id : Uuid)
    (error : SupervisionError) :
    Over { f with log := f.log ++ [.returned id (.error error)] } ∧
      Entries (SafeEvent text) (f.log ++ [.returned id (.error error)]) :=
  ⟨⟨h.pending, h.failed.append _⟩, hentries.concat trivial⟩

/-- The call takes the first item of the queue. -/
theorem Live.take (h : f.Live id [] since) {later : List Dispatched}
    (hqueued : f.queued = dispatched :: later) :
    Live id [dispatched] since { f with queued := later } := by
  obtain ⟨lost, hflow, hlost⟩ := h.flow
  refine ⟨h.under, h.own, h.pending, h.finished, ⟨lost, ?_, hlost⟩, h.alive⟩
  rw [← hflow, hqueued]
  simp

/-- A callback runs. -/
theorem Live.observe (h : f.Live id [dispatched] since) (hentries : Entries (SafeEvent text) f.log)
    (hother : ∀ final, dispatched ≠ .result final) : Live id [] (since ++ [.observed id dispatched])
        { f with log := f.log ++ [.observed id dispatched] } ∧
      Entries (SafeEvent text) (f.log ++ [.observed id dispatched]) := by
  obtain ⟨lost, hflow, hlost⟩ := h.flow
  have haccepted : acceptedIn (since ++ [.observed id dispatched]) = acceptedIn since := by
    simp [accepted?]
  have hobserved : observedIn (since ++ [.observed id dispatched]) =
      observedIn since ++ [dispatched] := by simp [observed?]
  constructor
  · refine ⟨h.under.concat (not_boundary_observed id dispatched), own_concat_of_not h.own rfl, ?_, ?_,
      ⟨lost, ?_, hlost⟩, ?_⟩
    · rw [haccepted]
      exact h.pending
    · rw [haccepted]
      exact h.finished
    · rw [haccepted, hobserved, ← hflow]
      simp
    · exact not_failed_concat h.alive fun _ _ heq => by cases heq
  · refine hentries.concat ⟨h.alive, hother, since, h.under, h.own, ?_⟩
    rw [← hflow, append_assoc, append_assoc]
    exact prefix_append _ _

/-- Of what a call holds and what follows, a result is the last. -/
theorem Live.last {final : WorkerResult} (h : f.Live id [.result final] since) :
    f.pending = none ∧ f.queued = [] ∧ f.inHand = [] ∧ final.requestId = id ∧
      (acceptedIn since).map Prod.snd = observedIn since ++ [.result final] := by
  obtain ⟨lost, hflow, -⟩ := h.flow
  have hmem : Dispatched.result final ∈ (acceptedIn since).map Prod.snd := by
    rw [← hflow]
    simp
  have hnone : f.pending = none := by
    cases hpending : f.pending with
    | none => rfl
    | some p => exact absurd hmem ((h.pending p hpending).2 final)
  obtain ⟨before, found, hlast, hid, hbefore⟩ := h.finished hnone
  rw [hlast] at hflow
  -- the result in hand is the only one there is
  generalize hrest : f.queued ++ (f.inHand ++ lost) = rest at *
  have hsplit : observedIn since ++ Dispatched.result final :: rest = before ++ [.result found] := by
    rw [← hflow, ← hrest]
    simp
  rcases eq_nil_or_concat rest with rfl | ⟨front, last, rfl⟩
  · obtain ⟨hbefore', hfinal⟩ := append_inj' hsplit rfl
    cases hfinal
    obtain ⟨hqueued, hinHand⟩ := append_eq_nil_iff.mp hrest
    exact ⟨hnone, hqueued, (append_eq_nil_iff.mp hinHand).1, hid, by rw [hlast, hbefore']⟩
  · rw [concat_eq_append, ← cons_append, ← append_assoc] at hsplit
    obtain ⟨hbefore', -⟩ := append_inj' hsplit rfl
    exact absurd (by rw [← hbefore']; simp) (hbefore final)

/-- The call returns its result. -/
theorem Live.finish {final : WorkerResult} (h : f.Live id [.result final] since)
    (hentries : Entries (SafeEvent text) f.log) :
    Quiet { f with log := f.log ++ [.returned id (.ok final)] } ∧
      Entries (SafeEvent text) (f.log ++ [.returned id (.ok final)]) := by
  obtain ⟨hpending, hqueued, hinHand, hid, hlast⟩ := h.last
  refine ⟨⟨hpending, hqueued, hinHand, fun other since => not_under_returned _ other, ?_⟩,
    hentries.concat ⟨h.alive, hid, since, h.under, h.own, hlast⟩⟩
  exact not_failed_concat h.alive fun _ _ heq => by cases heq

theorem Live.failing (h : f.Live id held since) : f.Failing id since :=
  ⟨h.under, h.own, fun p hp => (h.pending p hp).1, h.alive⟩

/-- The call returns its error. -/
theorem Failing.fail (h : f.Failing id since) (hpending : f.pending = none)
    (hentries : Entries (SafeEvent text) f.log) (error : SupervisionError) :
    Over { f with log := f.log ++ [.returned id (.error error)] } ∧
      Entries (SafeEvent text) (f.log ++ [.returned id (.error error)]) :=
  ⟨⟨hpending, f.log, id, since, error, [], rfl, h.under⟩, hentries.concat trivial⟩

end RequestFlow

end YawnApp.SessionCore
