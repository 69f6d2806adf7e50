/-
  SessionCore/MeetingCoordination.lean --- leases and scans
  (`meeting_coordination.rs`).

  A task locks the sequence to enter a meeting or to leave it, and a scan of the
  storage holds it from its snapshot of the active meetings to its end.  The
  tasks go on in any order.  What a call does under the lock is one step; a call
  that has to wait for the lock has not been made yet.  The second mutex, of the
  active meetings, is locked under the first only and for one operation on the
  set, so that it is neither waited for nor poisoned.
-/
import Mathlib.Data.Finset.Insert
import YawnApp.SessionCore.Library
import YawnApp.SessionCore.Recorded

set_option autoImplicit false

namespace YawnApp.SessionCore.MeetingCoordination

/-! ## The calls -/

/-- `MeetingStorageCoordination`, with the leases that are out and the task that holds the
sequence, which has its last snapshot. -/
structure State (ι μ : Type) where
  sequence : Option (ι × Option (Finset μ))
  poisoned : Bool
  active : Finset μ
  leases : Finset (ι × μ)

def State.default {ι μ : Type} : State ι μ := ⟨none, false, ∅, ∅⟩

/-- What a task can do. -/
inductive Call (μ : Type) where
  | acquire (meetingId : μ)
  | lockSequence
  | activeMeetingIds
  /-- The sequence is dropped, in a panic or not. -/
  | release (panicking : Bool)
  | drop (meetingId : μ)

section Calls

variable {ι μ : Type} [DecidableEq ι] [DecidableEq μ]

/-- `sequence.lock()`; `none` while it is held. -/
def State.lock (s : State ι μ) : Option (Except MeetingCoordinationError Unit) :=
  if s.sequence.isSome then none
  else some (if s.poisoned then .error .unavailable else .ok ())

/-- `acquire`: its answer, and the state after it. -/
def State.acquire (s : State ι μ) (task : ι) (meetingId : μ) :
    Option (Except MeetingCoordinationError Unit) × State ι μ :=
  match s.lock with
  | some (.ok _) =>
    if meetingId ∈ s.active then (some (.error .alreadyActive), s)
    else (some (.ok ()), { s with
      active := insert meetingId s.active
      leases := insert (task, meetingId) s.leases })
  | other => (other, s)

/-- `drop` of a lease. -/
def State.dropLease (s : State ι μ) (task : ι) (meetingId : μ) : State ι μ :=
  match s.lock with
  | none => s
  | some (.error _) => { s with leases := s.leases.erase (task, meetingId) }
  | some (.ok _) => { s with
      active := s.active.erase meetingId
      leases := s.leases.erase (task, meetingId) }

/-- Only the task with the `MeetingStorageSequence` can use it. -/
def State.ofHolder (s : State ι μ) (task : ι) (next : State ι μ) : State ι μ :=
  match s.sequence with
  | some (holder, _) => if holder = task then next else s
  | none => s

def step (s : State ι μ) (task : ι) : Call μ → State ι μ
  | .acquire meetingId => (s.acquire task meetingId).2
  | .lockSequence =>
    match s.lock with
    | some (.ok _) => { s with sequence := some (task, none) }
    | _ => s
  | .activeMeetingIds =>
    s.ofHolder task { s with sequence := some (task, some s.active) }
  | .release panicking =>
    s.ofHolder task { s with sequence := none, poisoned := s.poisoned || panicking }
  | .drop meetingId => if (task, meetingId) ∈ s.leases then s.dropLease task meetingId else s

/-- The state after calls of the tasks in any order. -/
def after (calls : List (ι × Call μ)) : State ι μ :=
  calls.foldl (fun s turn => step s turn.1 turn.2) State.default

end Calls

/-! ## What every call keeps -/

section Runs

variable {ι μ : Type}

/-- A meeting is under one lease at most and active while it is.  The active meetings are
those, unless a task panicked in the sequence. -/
structure Sound (s : State ι μ) : Prop where
  registered : ∀ task meetingId, (task, meetingId) ∈ s.leases → meetingId ∈ s.active
  exclusive : ∀ task other meetingId,
    (task, meetingId) ∈ s.leases → (other, meetingId) ∈ s.leases → task = other
  leased : s.poisoned = false → ∀ meetingId ∈ s.active, ∃ task, (task, meetingId) ∈ s.leases
  snapshot : ∀ task ids, s.sequence = some (task, some ids) → ids = s.active
  clean : s.sequence.isSome → s.poisoned = false

theorem Sound.default : Sound (State.default : State ι μ) := by
  constructor <;> simp [State.default]

variable [DecidableEq ι] [DecidableEq μ] {s : State ι μ}

theorem Sound.step (h : Sound s) (task : ι) (call : Call μ) : Sound (step s task call) := by
  obtain ⟨hregistered, hexclusive, hleased, hsnapshot, hclean⟩ := h
  cases call with
  | acquire =>
    unfold MeetingCoordination.step State.acquire State.lock
    constructor <;> grind
  | lockSequence =>
    unfold MeetingCoordination.step State.lock
    constructor <;> grind
  | activeMeetingIds | release panicking =>
    unfold MeetingCoordination.step State.ofHolder
    constructor <;> grind
  | drop =>
    unfold MeetingCoordination.step State.dropLease State.lock
    constructor <;> grind

theorem sound_after (calls : List (ι × Call μ)) : Sound (after calls) :=
  List.foldlRecOn calls _ Sound.default fun _ h turn _ => h.step turn.1 turn.2

theorem after_append (before later : List (ι × Call μ)) : after (before ++ later) =
    later.foldl (fun s turn => step s turn.1 turn.2) (after before) := List.foldl_append ..

/-- In every run a meeting is under one lease at most, and the active meetings are those under
a lease unless a task panicked in the sequence. -/
theorem leases_exact (calls : List (ι × Call μ)) :
    (∀ task other meetingId, (task, meetingId) ∈ (after calls).leases →
      (other, meetingId) ∈ (after calls).leases → task = other) ∧
    ((after calls).poisoned = false →
      (after calls).active = (after calls).leases.image Prod.snd) := by
  have h := sound_after calls
  refine ⟨h.exclusive, fun hclean => Finset.ext fun meetingId => ?_⟩
  rw [Finset.mem_image]
  constructor
  · intro hactive
    obtain ⟨task, hlease⟩ := h.leased hclean meetingId hactive
    exact ⟨_, hlease, rfl⟩
  · rintro ⟨lease, hlease, rfl⟩
    exact h.registered lease.1 lease.2 hlease

/-- Where `acquire` need not wait it answers as it does for one task alone, the meetings that
are held being those under a lease. -/
theorem acquire_answers (calls : List (ι × Call Uuid)) (task : ι) (meetingId : Uuid)
    (held : Uuid → Bool)
    (hheld : ∀ id, held id = true ↔ ∃ other, (other, id) ∈ (after calls).leases)
    (hfree : (after calls).sequence = none) (hclean : (after calls).poisoned = false) :
    ((after calls).acquire task meetingId).1 = some (SessionCore.acquire held meetingId) := by
  have h := sound_after calls
  unfold State.acquire State.lock SessionCore.acquire
  rw [hfree, hclean]
  by_cases hactive : meetingId ∈ (after calls).active
  · have hmeeting := (hheld meetingId).mpr (h.leased hclean meetingId hactive)
    simp [hactive, hmeeting, Foundation.refuseIf]
  · have hmeeting : ¬ held meetingId = true := by
      intro hmeeting
      obtain ⟨other, hlease⟩ := (hheld meetingId).mp hmeeting
      exact hactive (h.registered other meetingId hlease)
    simp [hactive, hmeeting, Foundation.refuseIf]

theorem acquire_answers_again :
    ((after [(0, .acquire sampleMeetingId)]).acquire 1 sampleMeetingId).1 =
      some (.error .alreadyActive) := by
  have h := acquire_answers [(0, .acquire sampleMeetingId)] 1 sampleMeetingId
    (· = sampleMeetingId) (fun id => by simp [after, step, State.acquire, State.lock, State.default])
    rfl rfl
  simpa [SessionCore.acquire, Foundation.refuseIf] using h

/-- Between a snapshot and the end of the sequence it was taken in, the active meetings are
those of the snapshot, and no meeting is entered or left. -/
theorem scan_unraced (before later : List (ι × Call μ)) (task : ι) (ids : Finset μ)
    (hscan : (after before).sequence = some (task, some ids))
    (hlater : ∀ turn ∈ later, ∀ panicking, turn ≠ (task, .release panicking)) :
    (after (before ++ later)).active = ids ∧
      (after (before ++ later)).leases = (after before).leases := by
  have hids := (sound_after before).snapshot task ids hscan
  rw [after_append, hids]
  refine (List.foldlRecOn (motive := fun s : State ι μ =>
    (∃ snapshot, s.sequence = some (task, snapshot)) ∧ s.active = (after before).active ∧
      s.leases = (after before).leases) later _ ⟨⟨_, hscan⟩, rfl, rfl⟩ ?_).2
  rintro s ⟨⟨snapshot, hsequence⟩, hactive, hleases⟩ ⟨other, call⟩ hturn
  have hother := hlater _ hturn
  cases call with
  | acquire | lockSequence | drop => grind [step, State.acquire, State.dropLease, State.lock]
  | activeMeetingIds | release => grind [step, State.ofHolder]

theorem scan_unraced_twoTasks :
    (after ([(0, .acquire 7), (1, .lockSequence), (1, .activeMeetingIds)] ++
      [(2, .acquire 8), (0, .drop 7)] : List (Nat × Call Nat))).active = {7} :=
  (scan_unraced [(0, .acquire 7), (1, .lockSequence), (1, .activeMeetingIds)]
    [(2, .acquire 8), (0, .drop 7)] 1 {7} (by decide) (by simp)).1

/-- After a panic in the sequence no lease is granted again: every `acquire` is refused, and
what was active stays so. -/
theorem poisoned_for_good (before later : List (ι × Call μ))
    (hpoisoned : (after before).poisoned = true) :
    (after (before ++ later)).active = (after before).active ∧
      (after (before ++ later)).leases ⊆ (after before).leases ∧
      ∀ task meetingId, ((after (before ++ later)).acquire task meetingId).1 =
        some (.error .unavailable) := by
  have hfree : (after before).sequence = none := by
    have hclean := (sound_after before).clean
    rw [hpoisoned] at hclean
    simpa using hclean
  rw [after_append]
  obtain ⟨hsequence, hpoisoned, hactive, hleases⟩ := List.foldlRecOn (motive := fun s : State ι μ =>
    s.sequence = none ∧ s.poisoned = true ∧ s.active = (after before).active ∧
      s.leases ⊆ (after before).leases) later (fun s turn => step s turn.1 turn.2)
    ⟨hfree, hpoisoned, rfl, subset_rfl⟩ (by
      rintro s ⟨hsequence, hpoisoned, hactive, hleases⟩ ⟨other, call⟩ -
      cases call with
      | acquire | lockSequence | drop => grind [step, State.acquire, State.dropLease, State.lock]
      | activeMeetingIds | release => grind [step, State.ofHolder])
  exact ⟨hactive, hleases, fun task meetingId => by
    rw [State.acquire, State.lock, hsequence, hpoisoned]
    rfl⟩

theorem poisoned_for_good_oneTask :
    ((after ([(0, .acquire 7), (1, .lockSequence), (1, .release true)] ++ [(0, .drop 7)] :
      List (Nat × Call Nat))).acquire 0 7).1 = some (.error .unavailable) :=
  (poisoned_for_good [(0, .acquire 7), (1, .lockSequence), (1, .release true)] [(0, .drop 7)]
    (by decide)).2.2 0 7

end Runs

end YawnApp.SessionCore.MeetingCoordination
