import YawnApp.SessionCore.QueueRuns

set_option autoImplicit false

/-!
# What the receipts of a request say

The loader refuses a request whose receipts contradict one another.  The writers
never make such a request: in every run, stopped anywhere, the receipts keep the
loader's rules, none is changed or taken away, and a committed request is the
one whose transcript its meeting shows.
-/

namespace YawnApp.SessionCore

open YawnApp.Foundation TranscriptionQueue Directory

variable {B : Type} [Platform B]

/-! ## The rules -/

/-- The rules of the loader and of `commit` for one request of the meeting. -/
structure ReceiptRules (name : String) (m : MeetingDirectory B) (v : ItemView B) : Prop where
  commitHasResult : (v.receipts .commit).isSome → (v.receipts .result).isSome
  exclusive : (v.receipts .commit).isSome → v.receipts .terminal = none
  quarantined : (v.receipts .result).isSome → ∀ bytes, v.receipts .terminal = some bytes →
    ∃ terminal : TranscriptionTerminal, bytes = toVecPretty terminal ∧ terminal.kind = .quarantined
  published : (v.receipts .commit).isSome → ∃ result meeting,
    readJson (α := TranscriptionResult) (v.receipts .result) = .ok result ∧
      loadMeeting m.reader name = .ok meeting ∧ meeting.lifecycle = .transcriptReady ∧
      meeting.artifacts.currentTranscript = some result.transcript

/-- Every request of the meeting keeps the rules. -/
def RulesHold (name : String) (m : MeetingDirectory B) : Prop :=
  ∀ id v, m.view? id = some v → ReceiptRules name m v

section Rules

variable {free : Uuid → Prop} {fresh : TranscriptionRequest → Prop} {oversized unfinished : Prop}
  {name : String} {m t : MeetingDirectory B} {v : ItemView B} {id : Uuid} {item : TranscriptionQueueItem}
  {meeting : MeetingRecord}

theorem loadMeeting_of_record (h : t.record = m.record)
    (hload : loadMeeting m.reader name = .ok meeting) :
    loadMeeting t.reader name = .ok meeting := by
  have hread : t.reader "meeting.json" = m.reader "meeting.json" := by
    rw [MeetingDirectory.reader_record, MeetingDirectory.reader_record, h]
  unfold loadMeeting readBounded at hload ⊢
  rwa [hread]

/-- The rules look at the record and at the receipts. -/
theorem ReceiptRules.congr {w : ItemView B} (h : ReceiptRules name m v)
    (hrecord : t.record = m.record) (hreceipts : w.receipts = v.receipts) :
    ReceiptRules name t w where
  commitHasResult := hreceipts ▸ h.commitHasResult
  exclusive := hreceipts ▸ h.exclusive
  quarantined := hreceipts ▸ h.quarantined
  published hcommit := by
    rw [hreceipts] at hcommit ⊢
    obtain ⟨result, meeting, hresult, hload, hready⟩ := h.published hcommit
    exact ⟨result, meeting, hresult, loadMeeting_of_record hrecord hload, hready⟩

/-- A request that is open keeps the rules as long as it is. -/
theorem receiptRules_of_isOpen (hcommit : v.receipts .commit = none)
    (hterminal : v.receipts .terminal = none) : ReceiptRules name m v where
  commitHasResult h := by rw [hcommit] at h; cases h
  exclusive h := by rw [hcommit] at h; cases h
  quarantined _ bytes hbytes := by rw [hterminal] at hbytes; cases hbytes
  published h := by rw [hcommit] at h; cases h

theorem ItemView.Shows.ended_eq_none (h : v.Shows id item) (hopen : item.isOpen = true) :
    v.receipts .commit = none ∧ v.receipts .terminal = none :=
  ⟨h.receipt_eq_none.2.2 (isOpen_iff.mp hopen).1, h.receipt_eq_none.2.1 (isOpen_iff.mp hopen).2⟩

/-- Nothing is committed while the meeting is captured. -/
theorem RulesHold.not_committed (h : RulesHold name m)
    (hload : loadMeeting m.reader name = .ok meeting) (hcaptured : meeting.lifecycle = .captured)
    {other : Uuid} {w : ItemView B} (hw : m.view? other = some w) : w.receipts .commit = none := by
  by_contra hne
  obtain ⟨_, found, _, hfound, hready, _⟩ :=
    (h other w hw).published (Option.isSome_iff_ne_none.mpr hne)
  rw [hload, Except.ok.injEq] at hfound
  rw [hfound, hready] at hcaptured
  cases hcaptured

/-- A new record does not touch the rules of requests that are not committed. -/
theorem ReceiptRules.of_not_committed (h : ReceiptRules name m v) (hnone : v.receipts .commit = none)
    (t : MeetingDirectory B) : ReceiptRules name t v where
  commitHasResult := h.commitHasResult
  exclusive := h.exclusive
  quarantined := h.quarantined
  published hcommit := by rw [hnone] at hcommit; cases hcommit

/-- One request has changed and the record has not. -/
theorem rulesHold_of_setView {v' : ItemView B} (hm : RulesHold name m)
    (h : Becomes m t m.record (setView m.view? id v')) (hv' : ReceiptRules name t v') :
    RulesHold name t := by
  intro other w hw
  rw [h.views] at hw
  by_cases hother : other = id
  · subst hother
    rw [setView_self, Option.some.injEq] at hw
    exact hw ▸ hv'
  · rw [setView_of_ne v' hother] at hw
    exact (hm other w hw).congr h.record rfl

/-- What is published is loaded again, and points to the transcript. -/
theorem Publishes.loads {transcript : ArtifactRef}
    (h : Publishes name m meeting transcript t.record)
    (hload : loadMeeting m.reader name = .ok meeting) : ∃ found,
      loadMeeting t.reader name = .ok found ∧ found.lifecycle = .transcriptReady ∧
        found.artifacts.currentTranscript = some transcript := by
  rcases h with ⟨hready, hcurrent, hsame⟩ | ⟨-, hvalid, hwritten⟩
  · exact ⟨meeting, loadMeeting_of_record hsame hload, hready, hcurrent⟩
  · refine ⟨publishedRecord meeting transcript, loadMeeting_of_read hvalid ?_, rfl, rfl⟩
    rw [MeetingDirectory.reader_record, hwritten]
    rfl

/-- After the commit of a request its meeting shows its transcript, and no other
request of the meeting was committed before over another record. -/
theorem rulesHold_of_commit {result : TranscriptionResult} {bytes : B} (hm : RulesHold name m)
    (hshows : v.Shows id item) (hopen : item.isOpen = true) (hresult : item.result = some result)
    (hmeeting : loadMeeting m.reader name = .ok meeting)
    (hpublishes : Publishes name m meeting result.transcript t.record)
    (h : Becomes m t t.record (setView m.view? id (v.link .commit bytes))) : RulesHold name t := by
  obtain ⟨-, hterminal⟩ := hshows.ended_eq_none hopen
  have hread := readOptionalJson_eq_some.mp (hresult ▸ hshows.result)
  have hhas : (v.receipts .result).isSome = true := by
    obtain ⟨held, hheld⟩ := isSome_of_readJson hread
    rw [hheld]
    rfl
  intro other w hw
  rw [h.views] at hw
  by_cases hother : other = id
  · subst hother
    rw [setView_self, Option.some.injEq] at hw
    subst hw
    obtain ⟨found, hfound, hready, hcurrent⟩ := hpublishes.loads hmeeting
    refine ⟨fun _ => hhas, fun _ => hterminal, fun _ held hheld => ?_,
      fun _ => ⟨result, found, hread, hfound, hready, hcurrent⟩⟩
    rw [ItemView.receipts_link, if_neg (by decide), hterminal] at hheld
    cases hheld
  · rw [setView_of_ne _ hother] at hw
    rcases hpublishes with ⟨-, -, hsame⟩ | ⟨hcaptured, -, -⟩
    · exact (hm other w hw).congr hsame rfl
    · exact (hm other w hw).of_not_committed (hm.not_committed hmeeting hcaptured hw) t

theorem QueueEffect.rulesHold (h : QueueEffect free fresh oversized unfinished name m t)
    (hm : RulesHold name m) : RulesHold name t := by
  cases h with
  | quiet h =>
    intro other w hw
    exact (hm other w (h.views ▸ hw)).congr h.record rfl
  | folder hcut hnone h =>
    subst h
    rw [RulesHold, view?_madeQueue hnone]
    exact fun other w hw => (hm other w hw).congr rfl rfl
  | unfinished id v' hcut hv h =>
    apply rulesHold_of_setView hm h
    generalize hold : m.view? id = old at hv
    cases hv with
    | item => exact receiptRules_of_isOpen rfl rfl
    | claims v | claim v => exact (hm id v hold).congr h.record rfl
  | request _ _ _ _ _ _ _ _ h =>
    exact rulesHold_of_setView hm h (receiptRules_of_isOpen rfl rfl)
  | claim id v _ _ hv _ _ _ _ _ _ _ h | release id v _ _ _ hv _ _ _ _ h =>
    exact rulesHold_of_setView hm h ((hm id v hv).congr h.record rfl)
  | result _ _ _ _ _ _ hshows hopen _ _ _ _ _ _ _ h =>
    obtain ⟨hcommit, hterminal⟩ := hshows.ended_eq_none hopen
    exact rulesHold_of_setView hm h (receiptRules_of_isOpen hcommit hterminal)
  | publish _ _ _ _ _ _ _ _ _ hmeeting _ _ hcaptured _ h =>
    intro other w hw
    rw [h.views] at hw
    exact (hm other w hw).of_not_committed (hm.not_committed hmeeting hcaptured hw) t
  | commit _ _ _ _ _ _ _ hshows hopen hresult hmeeting _ _ hpublishes _ h =>
    exact rulesHold_of_commit hm hshows hopen hresult hmeeting hpublishes h
  | terminal _ _ _ terminal _ hshows hopen hkind h =>
    obtain ⟨hcommit, -⟩ := hshows.ended_eq_none hopen
    have hresult := isSome_iff_of_readOptionalJson hshows.result
    refine rulesHold_of_setView hm h ⟨fun hc => ?_, fun hc => ?_, fun hr bytes hbytes => ?_,
      fun hc => ?_⟩
    · simp [hcommit] at hc
    · simp [hcommit] at hc
    · rw [ItemView.receipts_link, if_pos rfl, Option.some.injEq] at hbytes
      refine ⟨terminal, hbytes.symm, hkind ?_⟩
      rw [hresult]
      exact hr
    · simp [hcommit] at hc

/-! ## Nothing is taken away -/

/-- Every receipt of `v` is in `w` as it was. -/
def ItemView.KeepsReceipts (v w : ItemView B) : Prop :=
  ∀ receipt bytes, v.receipts receipt = some bytes → w.receipts receipt = some bytes

omit [Platform B] in
theorem ItemView.keepsReceipts_link {receipt : QueueReceipt} (hfree : v.receipts receipt = none)
    (bytes : B) : v.KeepsReceipts (v.link receipt bytes) := by
  intro other held hheld
  rw [receipts_link, if_neg]
  · exact hheld
  · rintro rfl
    rw [hfree] at hheld
    cases hheld

/-- An effect adds receipts and takes none away. -/
theorem QueueEffect.keepsReceipts (h : QueueEffect free fresh oversized unfinished name m t)
    (hv : m.view? id = some v) : ∃ w, t.view? id = some w ∧ v.KeepsReceipts w := by
  have hset : ∀ {other : Uuid} {v' : ItemView B} {record : Option B},
      Becomes m t record (setView m.view? other v') →
      (∀ old, m.view? other = some old → old.KeepsReceipts v') →
      ∃ w, t.view? id = some w ∧ v.KeepsReceipts w := by
    intro other v' record hbecomes hkeeps
    rw [hbecomes.views]
    by_cases hother : id = other
    · subst hother
      exact ⟨v', setView_self _ _ _, hkeeps v hv⟩
    · exact ⟨v, (setView_of_ne v' hother).trans hv, fun _ _ h => h⟩
  have hlink : ∀ {other : Uuid} {v' : ItemView B} {receipt : QueueReceipt} {bytes : B}
      {record : Option B}, m.view? other = some v' → v'.receipts receipt = none →
      Becomes m t record (setView m.view? other (v'.link receipt bytes)) →
      ∃ w, t.view? id = some w ∧ v.KeepsReceipts w := by
    intro other v' receipt bytes record hv' hfree hbecomes
    apply hset hbecomes
    intro old hold
    rw [hv', Option.some.injEq] at hold
    exact hold ▸ ItemView.keepsReceipts_link hfree bytes
  have hsame : ∀ {other : Uuid} {v' w : ItemView B} {record : Option B},
      Becomes m t record (setView m.view? other w) → m.view? other = some v' →
      w.receipts = v'.receipts → ∃ w, t.view? id = some w ∧ v.KeepsReceipts w := by
    intro other v' w record hbecomes hv' hreceipts
    apply hset hbecomes
    intro old hold
    rw [hv', Option.some.injEq] at hold
    subst hold
    intro receipt bytes hbytes
    rw [hreceipts]
    exact hbytes
  cases h with
  | quiet h => exact ⟨v, h.views ▸ hv, fun _ _ h => h⟩
  | folder hcut hnone h =>
    subst h
    exact ⟨v, (view?_madeQueue hnone).symm ▸ hv, fun _ _ h => h⟩
  | unfinished other v' hcut hunfinished h =>
    generalize hold : m.view? other = old at hunfinished
    cases hunfinished with
    | item => exact hset h fun old hsome => by rw [hold] at hsome; cases hsome
    | claims | claim => exact hsame h hold rfl
  | request _ _ _ _ hnew _ _ _ h =>
    exact hset h fun old hsome => by rw [hnew] at hsome; cases hsome
  | claim _ _ _ _ hv' _ _ _ _ _ _ _ h | release _ _ _ _ _ hv' _ _ _ _ h =>
    exact hsame h hv' rfl
  | result _ _ _ _ _ hv' hshows _ hnone _ _ _ _ _ _ h =>
    exact hlink hv' (hshows.receipt_eq_none.1 hnone) h
  | publish _ _ _ _ _ _ _ _ _ _ _ _ _ _ h => exact ⟨v, h.views ▸ hv, fun _ _ h => h⟩
  | commit _ _ _ _ _ _ hv' hshows hopen _ _ _ _ _ _ h =>
    exact hlink hv' (hshows.ended_eq_none hopen).1 h
  | terminal _ _ _ _ hv' hshows hopen _ h =>
    exact hlink hv' (hshows.ended_eq_none hopen).2 h

end Rules

/-! ## Runs -/

section Runs

variable [DecidableEq B] {library : Meetings B}

/-- A receipt of a request of the meeting `name`. -/
def HasReceipt (library : Meetings B) (name : String) (id : Uuid) (receipt : QueueReceipt)
    (bytes : B) : Prop :=
  ∃ m v, library.entry name = some m ∧ m.view? id = some v ∧ v.receipts receipt = some bytes

/-- A request that was committed, with its result. -/
def Committed (library : Meetings B) (request : TranscriptionRequest)
    (result : TranscriptionResult) : Prop :=
  ∃ name m id v, library.entry name = some m ∧ m.view? id = some v ∧
    readJson (v.receipts .request) = .ok request ∧ readJson (v.receipts .result) = .ok result ∧
    (v.receipts .commit).isSome

/-- No record and no receipt differs. -/
def SameReceipts (library t : Meetings B) : Prop :=
  ∀ name, (t.entry name).map (fun m => (m.record, m.view?)) =
    (library.entry name).map fun m => (m.record, m.view?)

omit [Platform B] [DecidableEq B] in
theorem LibraryQuiet.sameReceipts {t : Meetings B} (h : LibraryQuiet library t) :
    SameReceipts library t := by
  rcases h with rfl | ⟨name, m, m', hm, rfl, hquiet⟩
  · exact fun _ => rfl
  · intro other
    rw [entry_put]
    split
    · rename_i hother
      rw [hother, hm, Option.map_some, Option.map_some, hquiet.record, hquiet.views]
    · rfl

theorem hasReceipt_cut (hsound : SoundLibrary library) {name : String} {id : Uuid}
    {receipt : QueueReceipt} {bytes : B} (h : HasReceipt library name id receipt bytes)
    (attempt : QueueCall B × Nat) :
    HasReceipt (cut QueueCall.states library attempt) name id receipt bytes := by
  obtain ⟨m, v, hm, hv, hbytes⟩ := h
  rcases QueueCall.cut_effect hsound attempt with heq | ⟨other, m₀, m', hm₀, heq, heffect⟩
  · rw [heq]
    exact ⟨m, v, hm, hv, hbytes⟩
  · rw [heq]
    by_cases hname : name = other
    · subst hname
      rw [hm, Option.some.injEq] at hm₀
      subst hm₀
      obtain ⟨w, hw, hkeeps⟩ := heffect.keepsReceipts hv
      exact ⟨m', w, entry_put_self _ _ _, hw, hkeeps receipt bytes hbytes⟩
    · exact ⟨m, v, (entry_put_of_ne m' hname).trans hm, hv, hbytes⟩

/-- No receipt is changed or taken away by a run. -/
theorem hasReceipt_run {name : String} {id : Uuid} {receipt : QueueReceipt} {bytes : B}
    (hsound : SoundLibrary library) (h : HasReceipt library name id receipt bytes)
    (attempts : List (QueueCall B × Nat)) :
    HasReceipt (run QueueCall.states library attempts) name id receipt bytes :=
  (run_invariant_of_cut
    (I := fun s => SoundLibrary s ∧ HasReceipt s name id receipt bytes) QueueCall.states
    (fun _ attempt hs => ⟨hs.1.cut attempt, hasReceipt_cut hs.1 hs.2 attempt⟩) attempts library
    ⟨hsound, h⟩).2

omit [DecidableEq B] in
theorem NothingEnqueued.rulesHold (h : NothingEnqueued library) : Everywhere RulesHold library := by
  intro name m hm id v hv
  rw [view?_of_queue_none (h name m hm)] at hv
  cases hv

/-- The rules hold in every run, however its calls are stopped. -/
theorem rulesHold_run (h : NothingEnqueued library) (attempts : List (QueueCall B × Nat)) :
    Everywhere RulesHold (run QueueCall.states library attempts) :=
  (run_invariant_of_cut (I := fun s => SoundLibrary s ∧ Everywhere RulesHold s) QueueCall.states
    (fun _ attempt hs => ⟨hs.1.cut attempt, (QueueCall.cut_effect hs.1 attempt).everywhere
      (fun _ _ _ _ heffect hm => heffect.rulesHold hm) hs.2⟩) attempts library
    ⟨h.sound, h.rulesHold⟩).2

omit [DecidableEq B] in
/-- Two committed requests of one meeting have the same transcript: it is the one
that the meeting shows. -/
theorem transcript_eq_of_committed (hsound : SoundLibrary library)
    (hrules : Everywhere RulesHold library) {request request' : TranscriptionRequest}
    {result result' : TranscriptionResult} (h : Committed library request result)
    (h' : Committed library request' result') (hmeeting : request.meetingId = request'.meetingId) :
    result.transcript = result'.transcript := by
  have hof : ∀ {request : TranscriptionRequest} {result : TranscriptionResult},
      Committed library request result → ∃ m meeting,
        library.entry request.meetingId = some m ∧
        loadMeeting m.reader request.meetingId = .ok meeting ∧
        meeting.artifacts.currentTranscript = some result.transcript := by
    rintro request result ⟨name, m, id, v, hm, hv, hrequest, hresult, hcommit⟩
    obtain ⟨bytes, hbytes⟩ := isSome_of_readJson hrequest
    obtain ⟨r, rfl, -, hname, -⟩ := (hsound name m hm id v hv).request bytes hbytes
    rw [hbytes] at hrequest
    rw [eq_of_readJson hrequest, hname]
    obtain ⟨found, meeting, hfound, hload, -, hcurrent⟩ := (hrules name m hm id v hv).published hcommit
    rw [hresult, Except.ok.injEq] at hfound
    exact ⟨m, meeting, hm, hload, hfound ▸ hcurrent⟩
  obtain ⟨m, meeting, hm, hload, hcurrent⟩ := hof h
  obtain ⟨m', meeting', hm', hload', hcurrent'⟩ := hof h'
  rw [← hmeeting, hm, Option.some.injEq] at hm'
  subst hm'
  rw [← hmeeting, hload, Except.ok.injEq] at hload'
  subst hload'
  rw [hcurrent, Option.some.injEq] at hcurrent'
  exact hcurrent'

end Runs

/-- Of a request the source check looks at the three digests. -/
theorem loadSource_congr {request request' : TranscriptionRequest} (name : String)
    (m : MeetingDirectory B)
    (hsession : request.captureSessionSha256 = request'.captureSessionSha256)
    (hmicrophone : request.microphoneAudioSha256 = request'.microphoneAudioSha256)
    (hsystem : request.systemAudioSha256 = request'.systemAudioSha256) :
    loadSource name request m = loadSource name request' m := by
  unfold loadSource verifySource
  rw [hsession, hmicrophone, hsystem]

/-- A new request that is too long to be read back is refused, and its receipt is
there. -/
theorem enqueue_oversized [DecidableEq B] {library : Meetings B} {m : MeetingDirectory B}
    {request : TranscriptionRequest} {meeting : MeetingRecord} (hvalid : request.validate = .ok ())
    (hm : library.entry request.meetingId = some m)
    (hsource : loadSource request.meetingId request m = .ok meeting)
    (hnew : m.item? request.requestId = none) (hbig : ¬ Fits B request) :
    (∃ e, ((QueueCall.enqueue request).program.exec library).result = .error e) ∧
      HasReceipt (((QueueCall.enqueue request).program.exec library).final library)
        request.meetingId request.requestId .request (toVecPretty request) := by
  have hexec := enqueue_of_valid hvalid hm
  have hin := enqueueIn_of_new hsource hnew
  rw [hexec]
  constructor
  · rw [within_apply hm, hin]
    cases hload : loadItem (ItemView.empty.link .request (toVecPretty request) : ItemView B)
        request.requestId with
    | error e => exact ⟨e, rfl⟩
    | ok => exact absurd (fits_of_readJson (loadItem_eq_ok.mp hload).request) hbig
  · have hfinal : ((enqueueIn request).exec m).final m = m.withQueue.setItem request.requestId
        ⟨Drawer.empty.link .request (toVecPretty request), none⟩ := by
      rw [hin, Outcome.final, enqueueStates, getLastD_append]
      rfl
    rw [final_within hm, hfinal]
    exact ⟨_, _, entry_put_self _ _ _, MeetingDirectory.view?_of_item?
      (MeetingDirectory.item?_setItem_self m.withQueue request.requestId _), rfl⟩

/-- A text of `n` letters. -/
@[irreducible] def longText (n : Nat) : String := String.ofList (List.replicate n 'a')

theorem textSize_longText (n : Nat) : Value.textSize (longText n) = n := by
  have hletter : Value.escapedSize 'a' = 1 := by decide
  rw [longText, Value.textSize]
  rw [String.toList_ofList, List.map_replicate, hletter]
  simp

/-- A request like any other but for the length of its model identity. -/
def oversizedRequest : TranscriptionRequest :=
  { capturedRequest with modelIdentity := longText 262145 }

theorem not_fits_oversizedRequest : ¬ Fits CapturedBytes oversizedRequest := by
  apply TranscriptionRequest.not_fits
  rw [show oversizedRequest.modelIdentity = longText 262145 from rfl, textSize_longText]
  decide

theorem validate_oversizedRequest : oversizedRequest.validate = .ok () := by
  have hidentity : oversizedRequest.modelIdentity ≠ "" := by
    intro h
    have := textSize_longText 262145
    rw [show longText 262145 = "" from h] at this
    exact absurd this (by decide)
  unfold TranscriptionRequest.validate
  rw [refuseIf_of_not, ok_bind, refuseIf_of_not, ok_bind, refuseIf_of_not]
  · decide
  · rintro ⟨producer, hproducer, -⟩
    cases hproducer
  · rintro (h | h | h)
    · exact h (by decide)
    · exact hidentity h
    · exact absurd h (by decide)

end YawnApp.SessionCore
