import YawnApp.SessionCore.MeetingFiles
import YawnApp.SessionCore.OperationStoreRefinement

set_option autoImplicit false

/-!
# The library between durable phases

The coordinators move in phases: a receipt is stored, the worker's artifacts are
there, the meeting record is replaced.  Inside one phase the file protocols of
`Storage` and `OperationStore` take several steps; between two phases nothing
of them is left but the receipts and the files.  `Library` is the state between
phases, and each phase is one step on it.
-/

namespace YawnApp.SessionCore

open YawnApp.Foundation

variable {B : Type}

/-- The receipts of the operation store and the files of every meeting. -/
structure Library (B : Type) where
  operations : Receipts
  meetings : Uuid → Files B

namespace Library

/-- The same library with other files in one meeting. -/
def setMeeting (lib : Library B) (id : Uuid) (files : Files B) : Library B :=
  { lib with meetings := fun other => if other = id then files else lib.meetings other }

@[simp] theorem setMeeting_meetings_self (lib : Library B) (id : Uuid) (files : Files B) :
    (lib.setMeeting id files).meetings id = files := if_pos rfl

theorem setMeeting_meetings_of_ne {lib : Library B} {id other : Uuid} (files : Files B)
    (h : other ≠ id) : (lib.setMeeting id files).meetings other = lib.meetings other := if_neg h

@[simp] theorem setMeeting_self (lib : Library B) (id : Uuid) :
    lib.setMeeting id (lib.meetings id) = lib := by
  unfold setMeeting
  congr 1
  funext other
  by_cases h : other = id <;> simp [h]

/-- Reading below one meeting directory. -/
def reader (lib : Library B) (id : Uuid) : Reader B := (lib.meetings id).reader

/-- One phase of the operation store. -/
def updateOperations (change : Receipts → Except OperationStoreError Receipts) :
    Durable (Library B) OperationStoreError Unit :=
  Durable.step fun lib => (change lib.operations).map fun operations => { lib with operations }

/-- A program over the files of one meeting. -/
def inMeeting {ε α : Type} (id : Uuid) (program : Durable (Files B) ε α) :
    Durable (Library B) ε α :=
  Durable.zoom (fun lib => lib.meetings id) (fun files lib => lib.setMeeting id files) program

section InMeeting

variable {ε δ α β : Type} {id : Uuid} {program : Durable (Files B) ε α} {translate : ε → δ}
  {lib : Library B}

/-- Going on after a program over one meeting's files, which leaves `next`. -/
theorem inMeeting_bind_of_ok {a : α} {next : Library B} (k : α → Durable (Library B) δ β)
    (hnext : next = lib.setMeeting id ((program.exec (lib.meetings id)).final (lib.meetings id)))
    (h : (program.exec (lib.meetings id)).result = .ok a) :
    (Durable.mapError translate (inMeeting id program) >>= k).exec lib =
      ⟨(program.exec (lib.meetings id)).trace.map (lib.setMeeting id) ++ ((k a).exec next).trace,
        ((k a).exec next).result⟩ := by
  have hresult : ((Durable.mapError translate (inMeeting id program)).exec lib).result = .ok a :=
    congrArg (Except.mapError translate) h
  have hfinal : ((Durable.mapError translate (inMeeting id program)).exec lib).final lib =
      lib.setMeeting id ((program.exec (lib.meetings id)).final (lib.meetings id)) :=
    Durable.final_zoom (fun lib : Library B => lib.meetings id)
      (fun files lib => lib.setMeeting id files) program (lib.setMeeting_self id)
  rw [Durable.bind_of_ok k hresult, hfinal, ← hnext]
  rfl

theorem inMeeting_bind_of_error {e : ε} (k : α → Durable (Library B) δ β)
    (h : (program.exec (lib.meetings id)).result = .error e) :
    (Durable.mapError translate (inMeeting id program) >>= k).exec lib =
      ⟨(program.exec (lib.meetings id)).trace.map (lib.setMeeting id), .error (translate e)⟩ := by
  have hresult : ((Durable.mapError translate (inMeeting id program)).exec lib).result =
      .error (translate e) := congrArg (Except.mapError translate) h
  rw [Durable.bind_of_error k hresult]
  rfl

end InMeeting

section Platform

variable [Platform B]

/-- `write_meeting`. -/
def writeMeeting (id : Uuid) (meeting : MeetingRecord) : Durable (Library B) MeetingError Unit :=
  Durable.step fun lib => do
    let bytes ← meetingBytes meeting id.text
    return lib.setMeeting id ((lib.meetings id).put "meeting.json" bytes)

/-- The current transcript of a meeting, as its record says. -/
def currentTranscript (id : Uuid) (lib : Library B) : Option ArtifactRef :=
  match loadMeeting (lib.reader id) id.text with
  | .ok meeting => meeting.artifacts.currentTranscript
  | .error _ => none

/-- Writing a valid record. -/
theorem writeMeeting_of_valid {id : Uuid} {meeting : MeetingRecord}
    (h : meeting.validate B id.text = .ok ()) (lib : Library B) :
    (writeMeeting id meeting).exec lib =
      ⟨[lib.setMeeting id ((lib.meetings id).put "meeting.json" (toVecPretty meeting))], .ok ()⟩ := by
  apply Durable.step_of_ok
  unfold meetingBytes
  rw [h]
  rfl

end Platform

theorem updateOperations_of_ok {change : Receipts → Except OperationStoreError Receipts}
    {lib : Library B} {new : Receipts} (h : change lib.operations = .ok new) :
    (updateOperations change).exec lib = ⟨[{ lib with operations := new }], .ok ()⟩ :=
  Durable.step_of_ok (by rw [h]; rfl)

end Library

/-! ## Pending operations -/

/-- A stored request without a commit. -/
def StoredOperationReceipt.nonterminal (r : StoredOperationReceipt) : Bool := r.commit.isNone

/-- `nonterminal_for_meeting`, of both coordinators. -/
def nonterminalForMeeting (operations : Receipts) (meetingId : Uuid) :
    List (Uuid × StoredOperationReceipt) :=
  let entries := operations.entries.map fun entry => (entry.1, entry.2)
  (entries.filter fun (_, r) => r.nonterminal && decide (r.request.meetingId = meetingId)).insertionSort
    fun left right => left.1.text ≤ right.1.text

theorem mem_nonterminalForMeeting {operations : Receipts} {meetingId id : Uuid}
    {r : StoredOperationReceipt} :
    (id, r) ∈ nonterminalForMeeting operations meetingId ↔
      operations.lookup id = some r ∧ r.nonterminal = true ∧ r.request.meetingId = meetingId := by
  unfold nonterminalForMeeting
  rw [List.mem_insertionSort, List.mem_filter, Bool.and_eq_true, decide_eq_true_eq]
  apply and_congr_left
  intro _
  rw [← Option.mem_def, AList.mem_lookup_iff]
  constructor
  · intro h
    obtain ⟨entry, hentry, heq⟩ := List.mem_map.mp h
    cases heq
    exact hentry
  · exact fun h => List.mem_map.mpr ⟨_, h, rfl⟩

theorem nodup_nonterminalForMeeting (operations : Receipts) (meetingId : Uuid) :
    ((nonterminalForMeeting operations meetingId).map Prod.fst).Nodup := by
  have hkeys : (operations.entries.map Sigma.fst).Nodup := operations.nodupKeys
  unfold nonterminalForMeeting
  have hperm := (List.perm_insertionSort (fun left right : Uuid × StoredOperationReceipt =>
    left.1.text ≤ right.1.text) ((operations.entries.map fun entry => (entry.1, entry.2)).filter
      fun (_, r) => r.nonterminal && decide (r.request.meetingId = meetingId))).map Prod.fst
  refine hperm.nodup_iff.mpr (List.Nodup.sublist (List.filter_sublist.map Prod.fst) ?_)
  rw [List.map_map]
  exact hkeys

/-- The single pending operation of a meeting is the whole list. -/
theorem nonterminalForMeeting_eq_singleton {operations : Receipts} {meetingId id : Uuid}
    {r : StoredOperationReceipt}
    (h : (id, r) ∈ nonterminalForMeeting operations meetingId)
    (hone : ∀ other s, (other, s) ∈ nonterminalForMeeting operations meetingId → other = id) :
    nonterminalForMeeting operations meetingId = [(id, r)] := by
  have hnodup := nodup_nonterminalForMeeting operations meetingId
  have hlookup : ∀ e ∈ nonterminalForMeeting operations meetingId, e = (id, r) := by
    rintro ⟨other, s⟩ he
    have hid := hone other s he
    subst hid
    have hs := (mem_nonterminalForMeeting.mp he).1
    rw [(mem_nonterminalForMeeting.mp h).1, Option.some.injEq] at hs
    rw [hs]
  cases hlist : nonterminalForMeeting operations meetingId with
  | nil =>
    rw [hlist] at h
    cases h
  | cons first rest =>
    rw [hlist] at hlookup hnodup
    have hfirst := hlookup first List.mem_cons_self
    cases rest with
    | nil => rw [hfirst]
    | cons second =>
      have hsecond := hlookup second (by simp)
      rw [hfirst, hsecond] at hnodup
      simp at hnodup

/-! ## Leases and clocks -/

inductive MeetingCoordinationError where
  | unavailable
  | alreadyActive
deriving DecidableEq, Repr

/-- `MeetingStorageCoordination::acquire`, where `held` says which meetings are
active under another lease. -/
def acquire (held : Uuid → Bool) (meetingId : Uuid) : Except MeetingCoordinationError Unit :=
  refuseIf (held meetingId) .alreadyActive

/-- `now_epoch_seconds` of the system identity: what the clock shows, at least 1. -/
def nowEpochSeconds (clock : UInt64) : UInt64 := max clock 1

theorem nowEpochSeconds_ne_zero (clock : UInt64) : nowEpochSeconds clock ≠ 0 := by
  change (if clock ≤ 1 then 1 else clock) ≠ 0
  split
  · decide
  · rename_i hclock
    rintro rfl
    exact hclock (by decide)

end YawnApp.SessionCore
