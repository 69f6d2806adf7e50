import YawnApp.SessionCore.QueueSteps

set_option autoImplicit false

/-!
# What the operations of the queue can do

Each operation works in one meeting, and a crash can stop it between any two of
its steps.  `QueueEffect` lists every state it can leave, with the checks that
were passed on the way to it: nothing at all, a directory whose receipt is not
there yet, or one more receipt.  What the queue keeps true is proved from this
list and not from the operations.
-/

namespace YawnApp.SessionCore

open YawnApp.Foundation TranscriptionQueue List

variable {B : Type} [Platform B]

/-! ## The effects -/

/-- What the queue keeps true of one request, as far as a writer relies on it:
its receipts are whole and name the request, and each claim stands in the folder
of its own name. -/
structure ItemView.Sound (v : ItemView B) (name : String) (id : Uuid) : Prop where
  request : ∀ bytes, v.receipts .request = some bytes → ∃ r : TranscriptionRequest,
    bytes = toVecPretty r ∧ r.requestId = id ∧ r.meetingId = name ∧ validOpaqueId name = true
  result : ∀ bytes, v.receipts .result = some bytes → ∃ r : TranscriptionResult,
    bytes = toVecPretty r ∧ r.requestId = id ∧ validSha256 r.resultSha256 = true
  claims : ∀ e ∈ v.claims, ∀ bytes, e.2 .claim = some bytes → ∃ c : TranscriptionClaim,
    bytes = toVecPretty c ∧ c.claimId = e.1
  nodup : (v.claims.map Prod.fst).Nodup

/-- Every request of the meeting is sound. -/
def MeetingDirectory.Sound (name : String) (m : MeetingDirectory B) : Prop :=
  ∀ id v, m.view? id = some v → v.Sound name id

/-- A directory without its receipt, or not private yet: of a request, of the
claims of a request, or of one claim. -/
inductive Unfinished : Option (ItemView B) → ItemView B → Prop
  | item (isPrivate : Bool) : Unfinished none { (ItemView.empty : ItemView B) with isPrivate }
  | claims (v : ItemView B) : Unfinished (some v) { v with claimsPrivate := false }
  | claim (v : ItemView B) (claimId : Uuid) (hnew : ∀ e ∈ v.claims, e.1 ≠ claimId) :
    Unfinished (some v) (v.addClaim claimId)

/-- The record points to the transcript: it did already, or it was published
over a captured meeting. -/
def Publishes (name : String) (m : MeetingDirectory B) (meeting : MeetingRecord)
    (transcript : ArtifactRef) (record : Option B) : Prop :=
  (meeting.lifecycle = .transcriptReady ∧ meeting.artifacts.currentTranscript = some transcript ∧
      record = m.record) ∨
    (meeting.lifecycle = .captured ∧
      (publishedRecord meeting transcript).validate B name = .ok () ∧
      record = some (toVecPretty (publishedRecord meeting transcript)))

/-- What an operation on the meeting `m` can leave.  `free` says of which requests
no other one is claimed; `fresh` which requests it may make; `oversized` that the receipt of the operation is longer
than a reader accepts, and `unfinished` that it was stopped before its receipt. -/
inductive QueueEffect (free : Uuid → Prop) (fresh : TranscriptionRequest → Prop)
    (oversized unfinished : Prop) (name : String) (m t : MeetingDirectory B) : Prop
  /-- Nothing that is seen. -/
  | quiet (h : Quiet m t)
  /-- A queue folder that is not private yet. -/
  | folder (hcut : unfinished) (hnone : m.queue = none)
      (h : t = { m with queue := some Directory.made })
  | unfinished (id : Uuid) (v : ItemView B) (hcut : unfinished) (hv : Unfinished (m.view? id) v)
      (h : Becomes m t m.record (setView m.view? id v))
  | request (request : TranscriptionRequest) (meeting : MeetingRecord)
      (hvalid : request.validate = .ok ()) (hname : request.meetingId = name)
      (hnew : m.view? request.requestId = none)
      (hsource : loadSource name request m = .ok meeting) (hfresh : fresh request)
      (hfits : ¬ oversized → Fits B request)
      (h : Becomes m t m.record
        (setView m.view? request.requestId (ItemView.empty.link .request (toVecPretty request))))
  | claim (id : Uuid) (v : ItemView B) (item : TranscriptionQueueItem) (claim : TranscriptionClaim)
      (hv : m.view? id = some v) (hshows : v.Shows id item) (hopen : item.isOpen = true)
      (hnone : item.claim = none) (hfree : free id) (hid : claim.requestId = id)
      (hnew : ∀ e ∈ v.claims, e.1 ≠ claim.claimId) (hfits : Fits B claim)
      (h : Becomes m t m.record (setView m.view? id
        ((v.addClaim claim.claimId).linkClaim claim.claimId .claim (toVecPretty claim))))
  | release (id : Uuid) (v : ItemView B) (item : TranscriptionQueueItem)
      (claim : TranscriptionClaim) (release : TranscriptionClaimRelease)
      (hv : m.view? id = some v) (hshows : v.Shows id item) (hclaim : item.claim = some claim)
      (hid : release.requestId = id) (hclaimId : release.claimId = claim.claimId)
      (h : Becomes m t m.record
        (setView m.view? id (v.linkClaim claim.claimId .release (toVecPretty release))))
  | result (id : Uuid) (v : ItemView B) (item : TranscriptionQueueItem) (meeting : MeetingRecord)
      (result : TranscriptionResult)
      (hv : m.view? id = some v) (hshows : v.Shows id item) (hopen : item.isOpen = true)
      (hnone : item.result = none) (hsource : loadSource name item.request m = .ok meeting)
      (hid : result.requestId = id) (hdigest : validSha256 result.resultSha256 = true)
      (hpath : result.transcript.relativePath ≠ "meeting.json")
      (htranscript : verifyArtifactRef t.reader result.transcript = .ok ())
      (hfits : ¬ oversized → Fits B result)
      (h : Becomes m t m.record (setView m.view? id (v.link .result (toVecPretty result))))
  /-- The record is published and the commit receipt is not there yet. -/
  | publish (id : Uuid) (v : ItemView B) (item : TranscriptionQueueItem)
      (result : TranscriptionResult) (meeting : MeetingRecord)
      (hv : m.view? id = some v) (hshows : v.Shows id item) (hopen : item.isOpen = true)
      (hresult : item.result = some result) (hmeeting : loadMeeting m.reader name = .ok meeting)
      (hsource : verifySource m.reader meeting item.request = .ok ())
      (htranscript : verifyArtifactRef m.reader result.transcript = .ok ())
      (hcaptured : meeting.lifecycle = .captured)
      (hvalid : (publishedRecord meeting result.transcript).validate B name = .ok ())
      (h : Becomes m t (some (toVecPretty (publishedRecord meeting result.transcript))) m.view?)
  | commit (id : Uuid) (v : ItemView B) (item : TranscriptionQueueItem)
      (result : TranscriptionResult) (meeting : MeetingRecord) (commit : TranscriptionCommit)
      (hv : m.view? id = some v) (hshows : v.Shows id item) (hopen : item.isOpen = true)
      (hresult : item.result = some result) (hmeeting : loadMeeting m.reader name = .ok meeting)
      (hsource : verifySource m.reader meeting item.request = .ok ())
      (htranscript : verifyArtifactRef m.reader result.transcript = .ok ())
      (hpublishes : Publishes name m meeting result.transcript t.record) (hfits : Fits B commit)
      (h : Becomes m t t.record (setView m.view? id (v.link .commit (toVecPretty commit))))
  | terminal (id : Uuid) (v : ItemView B) (item : TranscriptionQueueItem)
      (terminal : TranscriptionTerminal)
      (hv : m.view? id = some v) (hshows : v.Shows id item) (hopen : item.isOpen = true)
      (hkind : item.result.isSome → terminal.kind = .quarantined)
      (h : Becomes m t m.record (setView m.view? id (v.link .terminal (toVecPretty terminal))))

/-- A call that may do more. -/
theorem QueueEffect.mono {free : Uuid → Prop} {fresh : TranscriptionRequest → Prop}
    {oversized oversized' unfinished unfinished' : Prop} {name : String} {m t : MeetingDirectory B}
    (h : QueueEffect free fresh oversized unfinished name m t) (hoversized : oversized → oversized')
    (hunfinished : unfinished → unfinished') : QueueEffect free fresh oversized' unfinished' name m t := by
  cases h with
  | quiet h => exact .quiet h
  | folder hcut hnone h => exact .folder (hunfinished hcut) hnone h
  | unfinished id v hcut hv h => exact .unfinished id v (hunfinished hcut) hv h
  | request request meeting hvalid hname hnew hsource hfresh hfits h =>
    exact .request request meeting hvalid hname hnew hsource hfresh (fun hs => hfits (hs ∘ hoversized)) h
  | claim id v item claim hv hshows hopen hnone hfree hid hnew hfits h =>
    exact .claim id v item claim hv hshows hopen hnone hfree hid hnew hfits h
  | release id v item claim release hv hshows hclaim hid hclaimId h =>
    exact .release id v item claim release hv hshows hclaim hid hclaimId h
  | result id v item meeting result hv hshows hopen hnone hsource hid hdigest hpath htranscript
      hfits h =>
    exact .result id v item meeting result hv hshows hopen hnone hsource hid hdigest hpath
      htranscript (fun hs => hfits (hs ∘ hoversized)) h
  | publish id v item result meeting hv hshows hopen hresult hmeeting hsource htranscript hcaptured
      hvalid h =>
    exact .publish id v item result meeting hv hshows hopen hresult hmeeting hsource htranscript
      hcaptured hvalid h
  | commit id v item result meeting commit hv hshows hopen hresult hmeeting hsource htranscript
      hpublishes hfits h =>
    exact .commit id v item result meeting commit hv hshows hopen hresult hmeeting hsource
      htranscript hpublishes hfits h
  | terminal id v item terminal hv hshows hopen hkind h =>
    exact .terminal id v item terminal hv hshows hopen hkind h

/-! ## What every effect keeps -/

section Kept

variable {free : Uuid → Prop} {fresh : TranscriptionRequest → Prop} {oversized unfinished : Prop}
  {name : String} {m t : MeetingDirectory B}

omit [Platform B] in
/-- A fact about each request, kept when one view changes. -/
theorem forall_view_of_setView {P : Uuid → ItemView B → Prop} {id : Uuid} {v' : ItemView B}
    {record : Option B} (hm : ∀ id v, m.view? id = some v → P id v)
    (h : Becomes m t record (setView m.view? id v')) (hv' : P id v') :
    ∀ id v, t.view? id = some v → P id v := by
  intro other v hv
  rw [h.views] at hv
  by_cases hother : other = id
  · subst hother
    rw [setView_self, Option.some.injEq] at hv
    exact hv ▸ hv'
  · rw [setView_of_ne v' hother] at hv
    exact hm other v hv

omit [Platform B] in
/-- A fact about each request, kept when nothing is seen. -/
theorem forall_view_of_same {P : Uuid → ItemView B → Prop}
    (hm : ∀ id v, m.view? id = some v → P id v) (h : t.view? = m.view?) :
    ∀ id v, t.view? id = some v → P id v := by
  rw [h]
  exact hm

namespace ItemView.Sound

variable {v : ItemView B} {id : Uuid}

/-- The receipts that end a request are not looked at. -/
theorem link_other (h : v.Sound name id) {receipt : QueueReceipt} (bytes : B)
    (hrequest : receipt ≠ .request) (hresult : receipt ≠ .result) :
    (v.link receipt bytes).Sound name id where
  request held hheld := h.request held (by
    rwa [receipts_link, if_neg (fun heq => hrequest heq.symm)] at hheld)
  result held hheld := h.result held (by
    rwa [receipts_link, if_neg (fun heq => hresult heq.symm)] at hheld)
  claims := h.claims
  nodup := h.nodup

theorem link_result (h : v.Sound name id) {result : TranscriptionResult}
    (hid : result.requestId = id) (hdigest : validSha256 result.resultSha256 = true) :
    (v.link .result (toVecPretty result)).Sound name id where
  request held hheld := h.request held hheld
  result held hheld := by
    rw [receipts_link, if_pos rfl, Option.some.injEq] at hheld
    exact ⟨result, hheld.symm, hid, hdigest⟩
  claims := h.claims
  nodup := h.nodup

theorem addClaim (h : v.Sound name id) {claimId : Uuid} (hnew : ∀ e ∈ v.claims, e.1 ≠ claimId) :
    (v.addClaim claimId).Sound name id where
  request := h.request
  result := h.result
  claims e he bytes hbytes := by
    rcases mem_append.mp he with he | he
    · exact h.claims e he bytes hbytes
    · rw [mem_singleton] at he
      subst he
      cases hbytes
  nodup := by
    unfold ItemView.addClaim
    rw [map_append, map_cons, map_nil, nodup_append]
    refine ⟨h.nodup, nodup_singleton _, fun a ha b hb => ?_⟩
    obtain ⟨e, he, rfl⟩ := mem_map.mp ha
    rw [mem_singleton] at hb
    exact hb ▸ hnew e he

/-- A receipt linked in a claim folder leaves the claims sound if it is the
claim of that name or a release. -/
theorem linkClaim (h : v.Sound name id) {claimId : Uuid} {receipt : ClaimReceipt} {bytes : B}
    (hclaim : receipt = .claim → ∃ c : TranscriptionClaim, bytes = toVecPretty c ∧ c.claimId = claimId) :
    (v.linkClaim claimId receipt bytes).Sound name id where
  request := h.request
  result := h.result
  claims e he held hheld := by
    obtain ⟨old, hold, rfl⟩ := mem_map.mp he
    split at hheld
    · rename_i hname
      simp only at hheld
      split at hheld
      · rename_i hreceipt
        rw [Option.some.injEq] at hheld
        obtain ⟨c, hc, hid⟩ := hclaim hreceipt.symm
        rw [if_pos hname]
        exact ⟨c, hheld ▸ hc, hid.trans hname.symm⟩
      · rw [if_pos hname]
        exact h.claims old hold held hheld
    · rename_i hname
      rw [if_neg hname]
      exact h.claims old hold held hheld
  nodup := by
    have hnames : (v.linkClaim claimId receipt bytes).claims.map Prod.fst = v.claims.map Prod.fst := by
      unfold ItemView.linkClaim
      rw [map_map]
      apply map_congr_left
      intro e _
      simp only [Function.comp_apply]
      split <;> rfl
    rw [hnames]
    exact h.nodup

end ItemView.Sound

theorem Unfinished.sound {old : Option (ItemView B)} {v : ItemView B} {id : Uuid}
    (h : Unfinished old v) (hold : ∀ v, old = some v → v.Sound name id) : v.Sound name id := by
  cases h with
  | item => exact ⟨nofun, nofun, nofun, nodup_nil⟩
  | claims v => exact ⟨(hold v rfl).request, (hold v rfl).result, (hold v rfl).claims, (hold v rfl).nodup⟩
  | claim v claimId hnew => exact (hold v rfl).addClaim hnew

omit [Platform B] in
/-- An empty queue folder shows no request. -/
theorem view?_madeQueue (hnone : m.queue = none) :
    ({ m with queue := some Directory.made } : MeetingDirectory B).view? = m.view? := by
  funext id
  unfold MeetingDirectory.view? MeetingDirectory.item?
  rw [hnone]
  rfl

theorem meetingId_of_validate {request : TranscriptionRequest} (h : request.validate = .ok ()) :
    validOpaqueId request.meetingId = true := by
  unfold TranscriptionRequest.validate at h
  simp only [bind_eq_ok, refuseIf_eq_ok, not_or, not_not] at h
  obtain ⟨_, ⟨hid, -⟩, -⟩ := h
  exact hid

theorem QueueEffect.sound (h : QueueEffect free fresh oversized unfinished name m t)
    (hm : m.Sound name) : t.Sound name := by
  have hsame : ∀ {record : Option B}, Becomes m t record m.view? → t.Sound name :=
    fun hbecomes => forall_view_of_same hm hbecomes.views
  have hset : ∀ {record : Option B} {id : Uuid} {v' : ItemView B},
      Becomes m t record (setView m.view? id v') → v'.Sound name id → t.Sound name :=
    fun hbecomes hv' => forall_view_of_setView hm hbecomes hv'
  cases h with
  | quiet h => exact hsame h
  | folder hcut hnone h => exact forall_view_of_same hm (h ▸ view?_madeQueue hnone)
  | unfinished id v hcut hv h => exact hset h (hv.sound fun v hold => hm id v hold)
  | request request _ hvalid hname _ _ _ _ h =>
    refine hset h ⟨fun bytes hbytes => ?_, nofun, nofun, nodup_nil⟩
    rw [ItemView.receipts_link, if_pos rfl, Option.some.injEq] at hbytes
    exact ⟨request, hbytes.symm, rfl, hname, hname ▸ meetingId_of_validate hvalid⟩
  | claim id v _ claim hv _ _ _ _ _ hnew _ h =>
    exact hset h (((hm id v hv).addClaim hnew).linkClaim fun _ => ⟨claim, rfl, rfl⟩)
  | release id v _ _ _ hv _ _ _ _ h =>
    exact hset h ((hm id v hv).linkClaim nofun)
  | result id v _ _ _ hv _ _ _ _ hid hdigest _ _ _ h =>
    exact hset h ((hm id v hv).link_result hid hdigest)
  | publish _ _ _ _ _ _ _ _ _ _ _ _ _ _ h => exact hsame h
  | commit id v _ _ _ _ hv _ _ _ _ _ _ _ _ h | terminal id v _ _ hv _ _ _ h =>
    exact hset h ((hm id v hv).link_other _ nofun nofun)

end Kept

end YawnApp.SessionCore
