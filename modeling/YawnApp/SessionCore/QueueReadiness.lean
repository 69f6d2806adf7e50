import YawnApp.SessionCore.QueueDiscovery
import YawnApp.SessionCore.QueueReceiptRules

set_option autoImplicit false

/-!
# Requests that can go on

An open request can go on when its meeting loads and its source and its
transcript are as they were.  Every effect keeps this of every open request of
the meeting, as long as its receipt is read back and it was not stopped before
the receipt: then discovery answers, and each open request can be ended.
-/

namespace YawnApp.SessionCore

open YawnApp.Foundation TranscriptionQueue

variable {B : Type} [Platform B]

/-! ## The source of a request -/

section Source

variable {name : String} {m t : MeetingDirectory B} {item : TranscriptionQueueItem}
  {meeting : MeetingRecord} {transcript : ArtifactRef}

theorem verifySource_eq_ok {read : Reader B} {request : TranscriptionRequest} :
    verifySource read meeting request = .ok () ↔ verifyRecordArtifacts read meeting = .ok () ∧
      meeting.artifacts.captureSession.map ArtifactRef.sha256 = some request.captureSessionSha256 ∧
      meeting.artifacts.microphoneAudio.map ArtifactRef.sha256 = some request.microphoneAudioSha256 ∧
      meeting.artifacts.systemAudio.map ArtifactRef.sha256 = some request.systemAudioSha256 := by
  unfold verifySource
  rw [check_bind_eq_ok, mapError_eq_ok, refuseIf_eq_ok]
  simp only [not_or, not_not]

/-- The references of a published record are those of the record before it and
the transcript. -/
theorem mem_references_publishedRecord (hretained : meeting.retention.state = .retained)
    {r : ArtifactRef} (h : r ∈ (publishedRecord meeting transcript).references) :
    r ∈ meeting.references ∨ r = transcript := by
  unfold MeetingRecord.references publishedRecord at *
  simp only [hretained, if_true, List.mem_append, Option.toList_some, List.mem_singleton,
    audioReferences] at h ⊢
  tauto

/-- What a request relies on while it is open: its meeting loads and holds its
audio, and neither its source nor its transcript has changed. -/
structure SourceReady (name : String) (m : MeetingDirectory B) (item : TranscriptionQueueItem)
    (meeting : MeetingRecord) : Prop where
  record : loadMeeting m.reader name = .ok meeting
  lifecycle : meeting.lifecycle ≠ .recoveredInterrupted
  retained : meeting.retention.state = .retained
  source : verifySource m.reader meeting item.request = .ok ()
  transcript : ∀ result ∈ item.result, result.transcript.relativePath ≠ "meeting.json" ∧
    verifyArtifactRef m.reader result.transcript = .ok ()

theorem SourceReady.valid (h : SourceReady name m item meeting) : meeting.Valid B name :=
  (MeetingRecord.validate_eq_ok B meeting name).mp (loadMeeting_eq_ok h.record)

/-- A request whose source was just checked. -/
theorem SourceReady.of_loadSource (hsource : loadSource name item.request m = .ok meeting)
    (hresult : item.result = none) : SourceReady name m item meeting := by
  obtain ⟨hrecord, hcaptured, hretained, hverified⟩ := loadSource_eq_ok.mp hsource
  refine ⟨hrecord, ?_, hretained, hverified, ?_⟩
  · rw [hcaptured]
    decide
  · rw [hresult]
    exact nofun

/-- A request is ready as before while the record is the same and the artifacts
are kept. -/
theorem SourceReady.of_becomes {views : Uuid → Option (ItemView B)}
    (h : SourceReady name m item meeting) (hbecomes : Becomes m t m.record views) :
    SourceReady name t item meeting where
  record := loadMeeting_of_record hbecomes.record h.record
  lifecycle := h.lifecycle
  retained := h.retained
  source := by
    obtain ⟨hartifacts, hdigests⟩ := verifySource_eq_ok.mp h.source
    exact verifySource_eq_ok.mpr ⟨verifyRecordArtifacts_of_keeps h.valid h.lifecycle
      hbecomes.keepsArtifacts hartifacts, hdigests⟩
  transcript result hresult :=
    ⟨(h.transcript result hresult).1, verifyArtifactRef_of_keeps hbecomes.keepsArtifacts
      (h.transcript result hresult).1 (h.transcript result hresult).2⟩

/-- A request is ready when a transcript of its meeting, its own or another, was
published. -/
theorem SourceReady.published {views : Uuid → Option (ItemView B)}
    (h : SourceReady name m item meeting) (hpath : transcript.relativePath ≠ "meeting.json")
    (htranscript : verifyArtifactRef m.reader transcript = .ok ())
    (hvalid : (publishedRecord meeting transcript).validate B name = .ok ())
    (hbecomes : Becomes m t (some (toVecPretty (publishedRecord meeting transcript))) views) :
    SourceReady name t item (publishedRecord meeting transcript) := by
  have hready : (publishedRecord meeting transcript).lifecycle ≠ .recoveredInterrupted := by
    change MeetingLifecycle.transcriptReady ≠ .recoveredInterrupted
    decide
  refine ⟨?_, hready, rfl, ?_, fun result hresult => ?_⟩
  · apply loadMeeting_of_read hvalid
    rw [MeetingDirectory.reader_record, hbecomes.record]
    rfl
  · obtain ⟨hartifacts, hdigests⟩ := verifySource_eq_ok.mp h.source
    refine verifySource_eq_ok.mpr ⟨?_, hdigests⟩
    rw [verifyRecordArtifacts_eq_ok h.lifecycle] at hartifacts
    rw [verifyRecordArtifacts_eq_ok hready]
    intro r hr
    rcases mem_references_publishedRecord h.retained hr with hr | rfl
    · exact verifyArtifactRef_of_keeps hbecomes.keepsArtifacts (h.valid.path_ne r hr)
        (hartifacts r hr)
    · exact verifyArtifactRef_of_keeps hbecomes.keepsArtifacts hpath htranscript
  · obtain ⟨hne, hverified⟩ := h.transcript result hresult
    exact ⟨hne, verifyArtifactRef_of_keeps hbecomes.keepsArtifacts hne hverified⟩

/-- Only the request and the result of an item matter. -/
theorem SourceReady.congr {other : TranscriptionQueueItem} (h : SourceReady name m item meeting)
    (hrequest : other.request = item.request) (hresult : other.result = item.result) :
    SourceReady name m other meeting :=
  ⟨h.record, h.lifecycle, h.retained, hrequest ▸ h.source, hresult ▸ h.transcript⟩

/-- A ready request is listed. -/
theorem SourceReady.listed (h : SourceReady name m item meeting) :
    verifySource m.reader meeting item.request = .ok () ∧
      ∀ result ∈ item.result, verifyArtifactRef m.reader result.transcript = .ok () :=
  ⟨h.source, fun result hresult => (h.transcript result hresult).2⟩

end Source

/-! ## Every request of a meeting -/

/-- The queue folder is private, every request is read, and the open ones are
ready. -/
structure Accepted (name : String) (m : MeetingDirectory B) : Prop where
  queuePrivate : m.QueuePrivate
  items : ∀ id v, m.view? id = some v → ∃ item, v.Shows id item ∧
    (item.isOpen = true → ∃ meeting, SourceReady name m item meeting)

section Accepted

variable {free : Uuid → Prop} {fresh : TranscriptionRequest → Prop} {oversized unfinished : Prop}
  {name : String} {m t : MeetingDirectory B} {id : Uuid} {v' : ItemView B} {item' : TranscriptionQueueItem}
  {v : ItemView B} {meeting : MeetingRecord}

/-- The requests of an accepted meeting are listed. -/
theorem Accepted.listed (h : Accepted name m) (hload : loadMeeting m.reader name = .ok meeting)
    (hv : m.view? id = some v) : ∃ item, listedItem m meeting id = .ok item := by
  obtain ⟨item, hshows, hready⟩ := h.items id v hv
  refine ⟨item, listedItem_eq_ok.mpr ⟨loadItemOf_eq_ok.mpr ⟨v, hv, hshows⟩, fun hopen => ?_⟩⟩
  obtain ⟨found, hfound⟩ := hready hopen
  have hsame : found = meeting := Except.ok.inj (hfound.record.symm.trans hload)
  exact hsame ▸ hfound.listed

/-- The record is the same and one request has changed. -/
theorem Accepted.of_setView (h : Accepted name m)
    (hbecomes : Becomes m t m.record (setView m.view? id v')) (hshows : v'.Shows id item')
    (hready : item'.isOpen = true → ∃ meeting, SourceReady name t item' meeting) :
    Accepted name t := by
  refine ⟨hbecomes.queuePrivate h.queuePrivate, fun other w hw => ?_⟩
  rw [hbecomes.views] at hw
  by_cases hother : other = id
  · subst hother
    rw [setView_self, Option.some.injEq] at hw
    exact ⟨item', hw ▸ hshows, hready⟩
  · rw [setView_of_ne v' hother] at hw
    obtain ⟨item, hitem, hold⟩ := h.items other w hw
    refine ⟨item, hitem, fun hopen => ?_⟩
    obtain ⟨meeting, hmeeting⟩ := hold hopen
    exact ⟨meeting, hmeeting.of_becomes hbecomes⟩

/-- One request of the same source has changed. -/
theorem Accepted.of_setView_same (h : Accepted name m) {item : TranscriptionQueueItem}
    (hv : m.view? id = some v) (hitem : v.Shows id item)
    (hbecomes : Becomes m t m.record (setView m.view? id v')) (hshows : v'.Shows id item')
    (hrequest : item'.request = item.request) (hresult : item'.result = item.result)
    (hopen : item'.isOpen = true → item.isOpen = true) : Accepted name t := by
  apply h.of_setView hbecomes hshows
  intro his
  obtain ⟨found, hfound, hready⟩ := h.items id v hv
  have hsame : found = item := hfound.unique hitem
  subst hsame
  obtain ⟨meeting, hmeeting⟩ := hready (hopen his)
  exact ⟨meeting, (hmeeting.congr hrequest hresult).of_becomes hbecomes⟩

/-- A transcript was published over the record: the requests that are as they
were are read and ready. -/
theorem Accepted.published (h : Accepted name m) {transcript : ArtifactRef}
    {views : Uuid → Option (ItemView B)} (hload : loadMeeting m.reader name = .ok meeting)
    (hpath : transcript.relativePath ≠ "meeting.json")
    (htranscript : verifyArtifactRef m.reader transcript = .ok ())
    (hvalid : (publishedRecord meeting transcript).validate B name = .ok ())
    (hbecomes : Becomes m t (some (toVecPretty (publishedRecord meeting transcript))) views)
    {other : Uuid} {w : ItemView B} (hw : m.view? other = some w) : ∃ item, w.Shows other item ∧
      (item.isOpen = true → ∃ meeting, SourceReady name t item meeting) := by
  obtain ⟨item, hitem, hold⟩ := h.items other w hw
  refine ⟨item, hitem, fun hopen => ?_⟩
  obtain ⟨found, hfound⟩ := hold hopen
  have hsame : found = meeting := Except.ok.inj (hfound.record.symm.trans hload)
  subst hsame
  exact ⟨_, hfound.published hpath htranscript hvalid hbecomes⟩

/-- A request was committed. -/
theorem Accepted.of_commit (h : Accepted name m) {item : TranscriptionQueueItem}
    {result : TranscriptionResult} {commit : TranscriptionCommit} (hv : m.view? id = some v)
    (hshows : v.Shows id item) (hopen : item.isOpen = true) (hresult : item.result = some result)
    (hload : loadMeeting m.reader name = .ok meeting)
    (htranscript : verifyArtifactRef m.reader result.transcript = .ok ())
    (hpublishes : Publishes name m meeting result.transcript t.record) (hfits : Fits B commit)
    (hbecomes : Becomes m t t.record (setView m.view? id (v.link .commit (toVecPretty commit)))) :
    Accepted name t := by
  have hlinked := hshows.link_commit hopen (by rw [hresult]; rfl) hfits
  have hended : ({ item with commit := some commit } : TranscriptionQueueItem).isOpen = true →
      ∃ meeting, SourceReady name t { item with commit := some commit } meeting := by
    intro his
    cases (isOpen_iff.mp his).1
  rcases hpublishes with ⟨-, -, hsame⟩ | ⟨-, hvalid, hwritten⟩
  · rw [hsame] at hbecomes
    exact h.of_setView hbecomes hlinked hended
  · obtain ⟨found, hfound, hready⟩ := h.items id v hv
    have hitem : found = item := hfound.unique hshows
    subst hitem
    obtain ⟨_, hsource⟩ := hready hopen
    have hpath := (hsource.transcript result (by rw [hresult]; rfl)).1
    rw [hwritten] at hbecomes
    refine ⟨hbecomes.queuePrivate h.queuePrivate, fun other w hw => ?_⟩
    rw [hbecomes.views] at hw
    by_cases hother : other = id
    · subst hother
      rw [setView_self, Option.some.injEq] at hw
      exact ⟨_, hw ▸ hlinked, hended⟩
    · rw [setView_of_ne _ hother] at hw
      exact h.published hload hpath htranscript hvalid hbecomes hw

/-- Every effect keeps a meeting accepted, unless its receipt is too long or
missing. -/
theorem QueueEffect.accepted (h : QueueEffect free fresh oversized unfinished name m t)
    (hsmall : ¬ oversized) (hfinished : ¬ unfinished) (hsound : m.Sound name)
    (hm : Accepted name m) : Accepted name t := by
  cases h with
  | quiet h =>
    refine ⟨h.queuePrivate hm.queuePrivate, fun id v hv => ?_⟩
    obtain ⟨item, hitem, hready⟩ := hm.items id v (h.views ▸ hv)
    refine ⟨item, hitem, fun hopen => ?_⟩
    obtain ⟨meeting, hmeeting⟩ := hready hopen
    exact ⟨meeting, hmeeting.of_becomes h⟩
  | folder hcut | unfinished _ _ hcut => exact absurd hcut hfinished
  | request request meeting _ _ _ hsource _ hfits h =>
    apply hm.of_setView h (ItemView.shows_request (hfits hsmall))
    intro _
    have hready : SourceReady name m ⟨request, none, none, none, none⟩ meeting :=
      .of_loadSource hsource rfl
    exact ⟨meeting, hready.of_becomes h⟩
  | claim _ _ _ claim hv hshows _ hnone _ hid hnew hfits h =>
    exact hm.of_setView_same hv hshows h (hshows.linkClaim_claim hnone claim hfits hid hnew) rfl rfl
      fun h => h
  | release id v item claim release hv hshows hclaim hid hclaimId h =>
    obtain ⟨receipts, hmem, hreads, -⟩ := (hsound id v hv).liveFolder hshows hclaim
    exact hm.of_setView_same hv hshows h (hshows.linkClaim_release (hsound id v hv).nodup hmem hreads
      release hid hclaimId) rfl rfl fun h => h
  | result _ _ _ meeting _ _ hshows hopen hnone hsource _ _ hpath htranscript hfits h =>
    apply hm.of_setView h (hshows.link_result hopen (hfits hsmall))
    intro _
    have hready := (SourceReady.of_loadSource hsource hnone).of_becomes h
    refine ⟨meeting, { hready with transcript := fun r hr => ?_ }⟩
    cases hr
    exact ⟨hpath, htranscript⟩
  | publish id v item result meeting hv hshows hopen hresult hmeeting hsource htranscript hcaptured
      hvalid h =>
    obtain ⟨found, hfound, hready⟩ := hm.items id v hv
    have hitem : found = item := hfound.unique hshows
    subst hitem
    obtain ⟨_, hready⟩ := hready hopen
    have hpath := (hready.transcript result (by rw [hresult]; rfl)).1
    refine ⟨h.queuePrivate hm.queuePrivate, fun other w hw => ?_⟩
    rw [h.views] at hw
    exact hm.published hmeeting hpath htranscript hvalid h hw
  | commit _ _ _ _ _ _ hv hshows hopen hresult hmeeting _ htranscript hpublishes hfits h =>
    exact hm.of_commit hv hshows hopen hresult hmeeting htranscript hpublishes hfits h
  | terminal _ _ _ terminal _ hshows hopen hkind h =>
    apply hm.of_setView h (hshows.link_terminal hopen terminal hkind)
    intro his
    cases (isOpen_iff.mp his).2

end Accepted

end YawnApp.SessionCore
