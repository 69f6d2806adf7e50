import YawnApp.SessionCore.QueueEffects

set_option autoImplicit false

/-!
# The effects of each operation

Every state that an operation of the queue passes, and so every state that a
crash in it can leave, is one effect away from where it started.
-/

namespace YawnApp.SessionCore

open YawnApp.Foundation TranscriptionQueue MeetingDirectory List Durable Directory

variable {B : Type} [Platform B]

section Operations

variable {free : Uuid → Prop} {fresh : TranscriptionRequest → Prop} {oversized unfinished : Prop}
  {name : String} {m : MeetingDirectory B} {v : ItemView B} {item : TranscriptionQueueItem}
  {request : TranscriptionRequest} {id claimId : Uuid} {worker : String}

theorem loadItemOf_eq_ok :
    loadItemOf id m = .ok item ↔ ∃ v, m.view? id = some v ∧ v.Shows id item := by
  unfold loadItemOf
  simp only [bind_eq_ok, orRefuse_eq_ok, loadItem_eq_ok]

theorem loadSource_eq_ok {meeting : MeetingRecord} :
    loadSource name request m = .ok meeting ↔ loadMeeting m.reader name = .ok meeting ∧
      meeting.lifecycle = .captured ∧ meeting.retention.state = .retained ∧
      verifySource m.reader meeting request = .ok () := by
  unfold loadSource loadMeetingOf
  simp only [bind_eq_ok, mapError_eq_ok, refuseIf_eq_ok, not_or, not_not, pure, Except.pure,
    Except.ok.injEq]
  constructor
  · rintro ⟨found, hload, _, ⟨hcaptured, hretained⟩, _, hsource, rfl⟩
    exact ⟨hload, hcaptured, hretained, hsource⟩
  · rintro ⟨hload, hcaptured, hretained, hsource⟩
    exact ⟨meeting, hload, (), ⟨hcaptured, hretained⟩, (), hsource, rfl⟩

/-- A meeting that loads has a record. -/
theorem record_of_loadMeeting {meeting : MeetingRecord}
    (h : loadMeeting m.reader name = .ok meeting) : ∃ bytes, m.record = some bytes := by
  unfold loadMeeting readBounded at h
  simp only [bind_eq_ok, reader_record, orRefuse_eq_ok] at h
  obtain ⟨_, ⟨bytes, hbytes, -⟩, -⟩ := h
  exact ⟨bytes, hbytes⟩

/-- Writing a receipt and reading the request again.  Only a receipt that is not
read back is refused. -/
theorem meets_receipt {receipt : QueueReceipt} {bytes : B} (hv : m.view? id = some v)
    (hprivate : v.isPrivate = true) (hfree : v.receipts receipt = none) :
    Meets (createReceipt id receipt bytes >>= fun _ => Durable.inspect (loadItemOf id)) m
      (fun t => Quiet m t ∨ Becomes m t m.record (setView m.view? id (v.link receipt bytes)))
      (fun item t => (v.link receipt bytes).Shows id item ∧
        Becomes m t m.record (setView m.view? id (v.link receipt bytes)))
      (fun _ t => (∀ item, ¬ (v.link receipt bytes).Shows id item) ∧
        Becomes m t m.record (setView m.view? id (v.link receipt bytes))) := by
  refine Meets.bind ((meets_createReceipt hv hprivate hfree (fun t ht => .inl ht)
    fun t ht => ⟨.inr ht, ?_⟩).mono (fun t ht => ht) (fun _ t ht => ht) (fun _ t ht => ht))
  have hview : t.view? id = some (v.link receipt bytes) := by
    rw [ht.views, setView_self]
  refine Meets.inspect (fun item hitem => ?_) fun e he => ⟨fun item hshows => ?_, ht⟩
  · obtain ⟨found, hfound, hshows⟩ := loadItemOf_eq_ok.mp hitem
    rw [hview, Option.some.injEq] at hfound
    exact ⟨hfound ▸ hshows, ht⟩
  · rw [loadItemOf_eq_ok.mpr ⟨_, hview, hshows⟩] at he
    cases he

/-- A receipt that is not there in the view of an open request. -/
theorem ItemView.Shows.receipt_eq_none (h : v.Shows id item) :
    (item.result = none → v.receipts .result = none) ∧
      (item.terminal = none → v.receipts .terminal = none) ∧
      (item.commit = none → v.receipts .commit = none) := by
  refine ⟨fun hnone => ?_, fun hnone => ?_, fun hnone => ?_⟩
  · exact readOptionalJson_eq_none.mp (hnone ▸ h.result)
  · exact readOptionalJson_eq_none.mp (hnone ▸ h.terminal)
  · exact readOptionalJson_eq_none.mp (hnone ▸ h.commit)

/-- `fail` ends a request or changes nothing. -/
theorem failIn_effect (id : Uuid) (kind : TranscriptionTerminalKind) (clock : UInt64) :
    Meets (failIn name id kind clock) m (QueueEffect free fresh oversized unfinished name m)
      (fun _ t => QueueEffect free fresh oversized unfinished name m t) (fun _ t => Quiet m t) := by
  unfold failIn
  refine Meets.bind_inspect (fun item hitem => ?_) fun _ _ => .refl m
  refine Meets.bind_inspect (fun meeting _ => ?_) fun _ _ => .refl m
  refine Meets.bind_inspect (fun _ _ => ?_) fun _ _ => .refl m
  refine Meets.bind_lift (fun _ hcommit => ?_) fun _ _ => .refl m
  refine Meets.bind_lift (fun _ hordinary => ?_) fun _ _ => .refl m
  obtain ⟨v, hv, hshows⟩ := loadItemOf_eq_ok.mp hitem
  rw [refuseIf_eq_ok, Option.not_isSome_iff_eq_none] at hcommit
  rw [refuseIf_eq_ok] at hordinary
  cases hterminal : item.terminal with
  | some =>
    exact Meets.bind_lift (fun _ _ => Meets.pure (.quiet (.refl m))) fun _ _ => .refl m
  | none =>
    have hopen := isOpen_iff.mpr ⟨hcommit, hterminal⟩
    have hkind : item.result.isSome → kind = .quarantined := by
      intro hresult
      by_contra hne
      exact hordinary ⟨hresult, hne⟩
    have hlinked := hshows.link_terminal hopen ⟨.v1, id, kind, clock⟩ hkind
    refine (meets_receipt hv hshows.isPrivate (hshows.receipt_eq_none.2.1 hterminal)).mono
      (fun t ht => ?_) (fun _ t ht => ?_) fun _ t ht => ?_
    · rcases ht with ht | ht
      · exact .quiet ht
      · exact .terminal id v item _ hv hshows hopen hkind ht
    · exact .terminal id v item _ hv hshows hopen hkind ht.2
    · exact absurd hlinked (ht.1 _)

/-- The request and the result of a sound item are those of its receipts. -/
theorem ItemView.Sound.ofShows (hsound : v.Sound name id) (h : v.Shows id item) :
    (item.request.meetingId = name ∧ validOpaqueId name = true) ∧
      ∀ result, item.result = some result →
        result.requestId = id ∧ validSha256 result.resultSha256 = true := by
  constructor
  · obtain ⟨bytes, hbytes⟩ := isSome_of_readJson h.request
    obtain ⟨r, rfl, -, hname, hvalid⟩ := hsound.request bytes hbytes
    have hread := h.request
    rw [hbytes] at hread
    rw [eq_of_readJson hread]
    exact ⟨hname, hvalid⟩
  · intro result hresult
    have hread := readOptionalJson_eq_some.mp (hresult ▸ h.result)
    obtain ⟨bytes, hbytes⟩ := isSome_of_readJson hread
    obtain ⟨r, rfl, hid, hdigest⟩ := hsound.result bytes hbytes
    rw [hbytes] at hread
    rw [eq_of_readJson hread]
    exact ⟨hid, hdigest⟩

/-- `publish` replaces the record or finds it done. -/
theorem meets_publish {meeting : MeetingRecord} {transcript : ArtifactRef}
    {C : MeetingDirectory B → Prop} {Q : Unit → MeetingDirectory B → Prop}
    {E : TranscriptionQueueError → MeetingDirectory B → Prop}
    (hC : ∀ t, Quiet m t → C t)
    (hpublished : meeting.lifecycle = .captured →
      (publishedRecord meeting transcript).validate B name = .ok () →
      ∀ t, Becomes m t (some (toVecPretty (publishedRecord meeting transcript))) m.view? → C t)
    (hQ : ∀ t, Publishes name m meeting transcript t.record → Becomes m t t.record m.view? → Q () t)
    (hE : ∀ e, E e m) : Meets (publish name meeting transcript) m C Q E := by
  unfold publish
  split
  · rename_i hready
    exact Meets.pure (hQ m (.inl ⟨hready.1, hready.2, rfl⟩) (Quiet.refl m))
  · refine Meets.bind_lift (fun _ hcaptured => ?_) fun e _ => hE e
    rw [refuseIf_eq_ok, not_not] at hcaptured
    refine Meets.bind_lift (fun bytes hbytes => ?_) fun e _ => hE e
    rw [mapError_eq_ok] at hbytes
    unfold meetingBytes at hbytes
    simp only [bind_eq_ok, pure, Except.pure, Except.ok.injEq] at hbytes
    obtain ⟨_, hvalid, rfl⟩ := hbytes
    have hbecomes : Becomes m { m with record := some (toVecPretty (publishedRecord meeting transcript)) }
        (some (toVecPretty (publishedRecord meeting transcript))) m.view? := ⟨rfl, rfl, id, .refl _⟩
    refine Meets.of_eq_ok (replaceRecord_apply _ m) ?_ ?_
    · intro t ht
      simp only [mem_cons, not_mem_nil, or_false] at ht
      rcases ht with rfl | rfl | rfl
      · exact hC _ ⟨rfl, rfl, id, .refl _⟩
      · exact hC _ ⟨rfl, rfl, id, .refl _⟩
      · exact hpublished hcaptured hvalid _ hbecomes
    · exact hQ _ (.inr ⟨hcaptured, hvalid, rfl⟩) hbecomes

/-- `commit` publishes and commits a result or changes nothing. -/
theorem commitIn_effect (hsound : m.Sound name) (id : Uuid) (clock : UInt64) :
    Meets (commitIn name id clock) m (QueueEffect free fresh oversized unfinished name m)
      (fun _ t => QueueEffect free fresh oversized unfinished name m t) (fun _ t => Quiet m t) := by
  unfold commitIn
  refine Meets.bind_inspect (fun item hitem => ?_) fun _ _ => .refl m
  refine Meets.bind_lift (fun result hresult => ?_) fun _ _ => .refl m
  refine Meets.bind_inspect (fun meeting hmeeting => ?_) fun _ _ => .refl m
  refine Meets.bind_inspect (fun _ hsource => ?_) fun _ _ => .refl m
  refine Meets.bind_inspect (fun _ htranscript => ?_) fun _ _ => .refl m
  obtain ⟨v, hv, hshows⟩ := loadItemOf_eq_ok.mp hitem
  rw [orRefuse_eq_ok] at hresult
  replace hmeeting : loadMeeting m.reader name = .ok meeting := mapError_eq_ok.mp hmeeting
  rw [mapError_eq_ok] at htranscript
  obtain ⟨hname, hresults⟩ := (hsound id v hv).ofShows hshows
  cases hcommit : item.commit with
  | some =>
    exact Meets.bind_lift (fun _ _ => Meets.pure (.quiet (.refl m))) fun _ _ => .refl m
  | none =>
    refine Meets.bind_lift (fun _ hterminal => ?_) fun _ _ => .refl m
    rw [refuseIf_eq_ok, Option.not_isSome_iff_eq_none] at hterminal
    have hopen := isOpen_iff.mpr ⟨hcommit, hterminal⟩
    refine Meets.bind (meets_publish (fun t ht => .quiet ht) (fun hcaptured hvalid t ht =>
      .publish id v item result meeting hv hshows hopen hresult hmeeting hsource htranscript
        hcaptured hvalid ht) (fun t hpublishes hbecomes => ?_) fun _ => .refl m)
    have hrecord : ∃ bytes, t.record = some bytes := by
      rcases hpublishes with ⟨-, -, hsame⟩ | ⟨-, -, hwritten⟩
      · rw [hsame]
        exact record_of_loadMeeting hmeeting
      · exact ⟨_, hwritten⟩
    refine Meets.bind_inspect (fun bytes _ => ?_) fun e he => ?_
    · have hviewt : t.view? id = some v := by rw [hbecomes.views, hv]
      have hfits : Fits B (⟨.v1, id, item.request.meetingId, result.resultSha256,
          Platform.sha256 bytes, clock⟩ : TranscriptionCommit) :=
        TranscriptionCommit.fits (hname.1 ▸ hname.2) (hresults result hresult).2
          (Platform.validSha256_sha256 bytes)
      have heffect : ∀ u, Becomes t u t.record (setView t.view? id (v.link .commit
          (toVecPretty (⟨.v1, id, item.request.meetingId, result.resultSha256,
            Platform.sha256 bytes, clock⟩ : TranscriptionCommit)))) →
          QueueEffect free fresh oversized unfinished name m u := by
        intro u hu
        have hall := hbecomes.trans hu
        rw [hbecomes.views, ← hu.record] at hall
        exact .commit id v item result meeting _ hv hshows hopen hresult hmeeting hsource
          htranscript (hu.record ▸ hpublishes) hfits hall
      have hlinked := hshows.link_commit hopen (by rw [hresult]; rfl) hfits
      refine (meets_receipt hviewt hshows.isPrivate (hshows.receipt_eq_none.2.2 hcommit)).mono
        (fun u hu => ?_) (fun _ u hu => heffect u hu.2) fun _ u hu => absurd hlinked (hu.1 _)
      rcases hu with hu | hu
      · have hquiet := hbecomes.quiet hu
        rcases hpublishes with ⟨-, -, hsame⟩ | ⟨hcaptured, hvalid, hwritten⟩
        · rw [hsame] at hquiet
          exact .quiet hquiet
        · rw [hwritten] at hquiet
          exact .publish id v item result meeting hv hshows hopen hresult hmeeting hsource
            htranscript hcaptured hvalid hquiet
      · exact heffect u hu
    · obtain ⟨bytes, hbytes⟩ := hrecord
      rw [orRefuse_eq_ok.mpr hbytes] at he
      cases he

/-! ### Claims -/

/-- The folder of the live claim of a sound request: it has the claim's name, and
no release. -/
theorem ItemView.Sound.liveFolder (hsound : v.Sound name id) (h : v.Shows id item)
    {claim : TranscriptionClaim} (hclaim : item.claim = some claim) :
    ∃ receipts, (claim.claimId, receipts) ∈ v.claims ∧
      ClaimReads id receipts claim none ∧ receipts .release = none := by
  obtain ⟨e, hunreleased, hread⟩ := h.unreleased_of_some hclaim
  have hmem : e ∈ v.unreleased := by rw [hunreleased]; exact mem_singleton_self e
  obtain ⟨he, hnotReleased⟩ := mem_filter.mp hmem
  obtain ⟨bytes, hbytes⟩ := isSome_of_readJson hread
  obtain ⟨c, rfl, hid⟩ := hsound.claims e he bytes hbytes
  have hsame : claim = c := by
    rw [hbytes] at hread
    exact eq_of_readJson hread
  have hnone : e.2 .release = none := by
    unfold ItemView.isUnreleased at hnotReleased
    rw [Bool.and_eq_true, Option.isNone_iff_eq_none] at hnotReleased
    exact hnotReleased.2
  refine ⟨e.2, by rw [hsame, hid]; exact he, ⟨hread, ?_, readOptionalJson_eq_none.mpr hnone, nofun⟩,
    hnone⟩
  obtain ⟨before, after, hsplit⟩ := append_of_mem he
  have hlive := h.claim
  rw [hsplit, liveClaim_append] at hlive
  obtain ⟨_, -, hrest⟩ := bind_eq_ok.mp hlive
  obtain ⟨other, _, hother, -⟩ := liveClaim_cons.mp hrest
  have : claim = other := by
    have := hread.symm.trans hother.claimRead
    simpa using this
  rw [this]
  exact hother.requestId

omit [Platform B] in
/-- A receipt linked in one of several folders changes that folder only. -/
theorem linkClaim_of_split {receipts : ClaimReceipt → Option B}
    {before after : List (Uuid × (ClaimReceipt → Option B))}
    (hsplit : v.claims = before ++ (claimId, receipts) :: after)
    (hnodup : (v.claims.map Prod.fst).Nodup) (receipt : ClaimReceipt) (bytes : B) :
    (v.linkClaim claimId receipt bytes).claims = before ++ (claimId, fun other =>
      if other = receipt then some bytes else receipts other) :: after := by
  have hothers : ∀ e ∈ before ++ after, e.1 ≠ claimId := by
    rw [hsplit, map_append, map_cons] at hnodup
    have := (nodup_middle.mp hnodup)
    rw [nodup_cons, ← map_append] at this
    intro e he heq
    exact this.1 (mem_map.mpr ⟨e, he, heq⟩)
  have hsame : ∀ l : List (Uuid × (ClaimReceipt → Option B)), (∀ e ∈ l, e.1 ≠ claimId) →
      l.map (fun e => if e.1 = claimId then
        (e.1, fun other => if other = receipt then some bytes else e.2 other) else e) = l := by
    intro l hl
    refine (map_congr_left fun e he => ?_).trans (map_id l)
    exact if_neg (hl e he)
  unfold ItemView.linkClaim
  simp only [hsplit, map_append, map_cons, if_true]
  rw [hsame before fun e he => hothers e (mem_append_left _ he),
    hsame after fun e he => hothers e (mem_append_right _ he)]

/-- The live claim is released. -/
theorem ItemView.Shows.linkClaim_release (h : v.Shows id item) {claim : TranscriptionClaim}
    {receipts : ClaimReceipt → Option B} (hnodup : (v.claims.map Prod.fst).Nodup)
    (hmem : (claim.claimId, receipts) ∈ v.claims) (hreads : ClaimReads id receipts claim none)
    (release : TranscriptionClaimRelease) (hid : release.requestId = id)
    (hclaimId : release.claimId = claim.claimId) :
    (v.linkClaim claim.claimId .release (toVecPretty release)).Shows id
      { item with claim := none } := by
  obtain ⟨before, after, hsplit⟩ := append_of_mem hmem
  have hlive := h.claim
  rw [hsplit] at hlive
  refine { h with claim := ?_, coherent := ⟨h.coherent.1, h.coherent.2, h.coherent.3⟩ }
  have hreleased : ClaimReads id (fun other =>
      if other = .release then some (toVecPretty release) else receipts other) claim
        (some release) := by
    refine ⟨hreads.claimRead, hreads.requestId, ?_, ?_⟩
    · exact readOptionalJson_eq_some.mpr (readJson_toVecPretty release.fits)
    · rintro r hr
      cases hr
      exact ⟨hclaimId, hid⟩
  rw [linkClaim_of_split hsplit hnodup]
  exact liveClaim_of_released hlive hreads hreleased

theorem appendRelease_effect (hsound : m.Sound name) (hitem : loadItemOf id m = .ok item)
    (claimId : Uuid) (clock : UInt64) : Meets (appendRelease id claimId clock item) m
      (QueueEffect free fresh oversized unfinished name m)
      (fun _ t => QueueEffect free fresh oversized unfinished name m t) (fun _ t => Quiet m t) := by
  obtain ⟨v, hv, hshows⟩ := loadItemOf_eq_ok.mp hitem
  unfold appendRelease
  refine Meets.bind_lift (fun claim hclaim => ?_) fun _ _ => .refl m
  refine Meets.bind_lift (fun _ hclaimId => ?_) fun _ _ => .refl m
  rw [orRefuse_eq_ok] at hclaim
  rw [refuseIf_eq_ok, not_not] at hclaimId
  subst hclaimId
  obtain ⟨receipts, hmem, hreads, hunreleased⟩ := (hsound id v hv).liveFolder hshows hclaim
  obtain ⟨directory, hdirectory, rfl⟩ := item?_of_view? hv
  obtain ⟨⟨_, folder⟩, hfolder, heq⟩ := mem_map.mp hmem
  obtain ⟨rfl, rfl⟩ := Prod.mk.inj heq
  rw [mem_entries] at hfolder
  have hlinked := hshows.linkClaim_release (hsound id _ hv).nodup hmem hreads
    ⟨.v1, id, claim.claimId, clock⟩ rfl rfl
  have heffect : ∀ t, Becomes m t m.record (setView m.view? id (directory.view.linkClaim
      claim.claimId .release (toVecPretty (⟨.v1, id, claim.claimId, clock⟩ :
        TranscriptionClaimRelease)))) → QueueEffect free fresh oversized unfinished name m t :=
    fun t ht => .release id _ item claim _ hv hshows hclaim rfl rfl ht
  refine Meets.bind_inspect (fun released hreleased => ?_) fun _ he => by cases he
  simp only [hdirectory, Option.bind_some, hfolder, Except.ok.injEq] at hreleased
  rw [if_pos (by rw [← hreleased, hunreleased]; rfl)]
  refine Meets.bind (meets_createClaimReceipt hdirectory hfolder hunreleased (fun t ht => .quiet ht)
    fun t ht => ⟨heffect t ht, ?_⟩)
  have hview : t.view? id = some _ := (congrFun ht.views id).trans (setView_self _ _ _)
  exact Meets.inspect (fun _ _ => heffect t ht) fun e he => by
    rw [loadItemOf_eq_ok.mpr ⟨_, hview, hlinked⟩] at he
    cases he

/-- `release_claim` releases the live claim or changes nothing. -/
theorem releaseClaimIn_effect (hsound : m.Sound name) (id claimId : Uuid) (clock : UInt64) :
    Meets (releaseClaimIn name id claimId clock) m (QueueEffect free fresh oversized unfinished name m)
      (fun _ t => QueueEffect free fresh oversized unfinished name m t) (fun _ t => Quiet m t) := by
  unfold releaseClaimIn
  refine Meets.bind_inspect (fun item hitem => ?_) fun _ _ => .refl m
  have happend : Meets (appendRelease id claimId clock item) m
      (QueueEffect free fresh oversized unfinished name m)
      (fun _ t => QueueEffect free fresh oversized unfinished name m t) (fun _ t => Quiet m t) :=
    appendRelease_effect hsound hitem claimId clock
  split
  · refine Meets.bind_inspect (fun meeting _ => ?_) fun _ _ => .refl m
    exact Meets.bind_inspect (fun _ _ => happend) fun _ _ => .refl m
  · exact happend

/-! ### New requests -/

omit [Platform B] in
theorem quiet_withQueue (m : MeetingDirectory B) : Quiet m m.withQueue := by
  have hitems : m.withQueue.item? = m.item? := by
    funext id
    unfold item? withQueue
    cases m.queue <;> rfl
  refine ⟨rfl, ?_, fun _ queue hqueue => ?_, .refl _⟩
  · funext id
    unfold view?
    rw [hitems]
  · cases hqueue
    rfl

/-- The states of a new request: its directory is made and then its receipt. -/
def enqueueStates (m : MeetingDirectory B) (request : TranscriptionRequest) :
    List (MeetingDirectory B) :=
  (if m.queue.isSome then [] else [{ m with queue := some Directory.made }]) ++
    (m.withQueue :: m.withQueue.setItem request.requestId ItemDirectory.made ::
      m.withQueue.setItem request.requestId default ::
      (Drawer.empty.newStates .request (toVecPretty request)).map fun receipts =>
        m.withQueue.setItem request.requestId ⟨receipts, none⟩)

theorem enqueueIn_of_new {meeting : MeetingRecord}
    (hsource : loadSource request.meetingId request m = .ok meeting)
    (hnew : m.item? request.requestId = none) : (enqueueIn request).exec m =
      ⟨enqueueStates m request, loadItem
        (ItemView.empty.link .request (toVecPretty request) : ItemView B) request.requestId⟩ := by
  have hitems : m.withQueue.item? request.requestId = none := by
    rw [← view?_eq_none, (quiet_withQueue m).views, view?_eq_none]
    exact hnew
  have hreceipt : (createReceipt request.requestId .request (toVecPretty request)).exec
      (m.withQueue.setItem request.requestId default) =
        ⟨(Drawer.empty.newStates .request (toVecPretty request)).map fun receipts =>
          m.withQueue.setItem request.requestId ⟨receipts, none⟩, .ok ()⟩ := by
    rw [createReceipt_of_free _ (item?_setItem_self _ _ _) rfl]
    simp only [setItem_setItem]
    rfl
  have hview := view?_of_item?
    (item?_setItem_self m.withQueue request.requestId
      ⟨Drawer.empty.link .request (toVecPretty request), none⟩)
  have hread : (Durable.inspect (fun m => verifySource m.reader meeting request) >>= fun _ =>
      Durable.inspect (loadItemOf request.requestId)).exec (m.withQueue.setItem request.requestId
        ⟨Drawer.empty.link .request (toVecPretty request), none⟩) = ⟨[], loadItem
        (ItemView.empty.link .request (toVecPretty request) : ItemView B) request.requestId⟩ := by
    have hverified : verifySource (m.withQueue.setItem request.requestId
        ⟨Drawer.empty.link .request (toVecPretty request), none⟩).reader meeting request = .ok () :=
      (loadSource_eq_ok.mp hsource).2.2.2
    rw [bind_of_eq_ok_nil _ (congrArg (Outcome.mk []) hverified)]
    apply congrArg (Outcome.mk [])
    unfold loadItemOf
    rw [hview]
    rfl
  unfold enqueueIn
  rw [bind_inspect_of_ok _ hsource, bind_of_eq_ok _ (createQueueFolder_apply m),
    getLastD_concat, bind_look, hitems]
  simp only
  rw [bind_of_eq_ok _ (createItemDirectory_apply m.withQueue request.requestId)]
  rw [show List.getLastD _ _ = m.withQueue.setItem request.requestId default from rfl,
    bind_of_eq_ok _ (onError_of_eq_ok hreceipt)]
  rw [show List.getLastD _ _ = m.withQueue.setItem request.requestId
    ⟨Drawer.empty.link .request (toVecPretty request), none⟩ from rfl, hread]
  simp only [enqueueStates, append_nil, append_assoc]
  rfl

/-- A request that is known already changes nothing. -/
theorem meets_enqueueIn_known {item : ItemDirectory B} (h : m.item? request.requestId = some item) :
    Meets (enqueueIn request) m (Quiet m) (fun _ t => Quiet m t) (fun _ t => Quiet m t) := by
  have hitem : m.withQueue.item? request.requestId = some item := by
    unfold item? withQueue at *
    cases hqueue : m.queue with
    | none => simp [hqueue] at h
    | some => simpa [hqueue] using h
  have hqueue : m.queue.isSome = true := by
    unfold item? at h
    cases hqueue : m.queue with
    | none => simp [hqueue] at h
    | some => rfl
  have hquiet := quiet_withQueue m
  unfold enqueueIn
  refine Meets.bind_inspect (fun meeting _ => ?_) fun _ _ => .refl m
  refine Meets.bind (Meets.of_eq_ok (createQueueFolder_apply m) (fun t ht => ?_) ?_)
  · rw [if_pos hqueue, nil_append, mem_singleton] at ht
    exact ht ▸ hquiet
  · rw [getLastD_concat]
    refine Meets.bind_inspect (fun found hfound => ?_) fun _ he => by cases he
    rw [hitem, Except.ok.injEq] at hfound
    subst hfound
    refine Meets.bind_inspect (fun existing _ => ?_) fun _ _ => hquiet
    exact Meets.bind_lift (fun _ _ => Meets.pure hquiet) fun _ _ => hquiet

/-- The request is new and its source passes: `enqueue` makes its directory. -/
def EnqueuesNew (m : MeetingDirectory B) (request : TranscriptionRequest) : Prop :=
  (∃ meeting, loadSource request.meetingId request m = .ok meeting) ∧
    m.item? request.requestId = none

/-- `enqueue` stopped anywhere. -/
theorem enqueueIn_cut (hvalid : request.validate = .ok ()) (hfresh : fresh request) (steps : Nat) :
    QueueEffect free fresh (¬ Fits B request) (EnqueuesNew m request ∧ StopsUnfinished m.queue.isSome steps)
      request.meetingId m ((((enqueueIn request).exec m).trace.take steps).getLastD m) := by
  cases hitem : m.item? request.requestId with
  | some => exact .quiet ((meets_enqueueIn_known hitem).cut (.refl m) steps)
  | none =>
    cases hsource : loadSource request.meetingId request m with
    | error =>
      unfold enqueueIn
      rw [bind_inspect_of_error _ hsource]
      simpa using QueueEffect.quiet (.refl m)
    | ok meeting =>
      have hquiet := quiet_withQueue m
      have hview : m.view? request.requestId = none := view?_eq_none.mpr hitem
      have hviews : ∀ item, Becomes m (m.withQueue.setItem request.requestId item) m.record
          (setView m.view? request.requestId item.view) :=
        fun item => hquiet.becomes (becomes_setItem _ _ item)
      have hlinked : ∀ temporaries, QueueEffect free fresh (¬ Fits B request)
          (EnqueuesNew m request ∧ StopsUnfinished m.queue.isSome steps) request.meetingId m
          (m.withQueue.setItem request.requestId
            ⟨{ Drawer.empty.link .request (toVecPretty request) with temporaries }, none⟩) :=
        fun temporaries => .request request meeting hvalid rfl hview hsource hfresh not_not.mp (hviews _)
      rw [enqueueIn_of_new hsource hitem]
      rcases cut_directoryAndReceipt (rfl : _ = ((enqueueStates m request).take steps).getLastD m) with
        ht | ⟨hstops, ht⟩
      · simp only [mem_cons, not_mem_nil, or_false] at ht
        rcases ht with ht | ht | ht | ht <;> rw [ht]
        · exact .quiet (.refl m)
        · exact .quiet hquiet
        · exact hlinked _
        · exact hlinked _
      · have hcut : EnqueuesNew m request ∧ StopsUnfinished m.queue.isSome steps :=
          ⟨⟨⟨meeting, hsource⟩, hitem⟩, hstops⟩
        have hunfinished : ∀ receipts : Drawer QueueReceipt B, receipts.linked = (fun _ => none) →
            QueueEffect free fresh (¬ Fits B request)
              (EnqueuesNew m request ∧ StopsUnfinished m.queue.isSome steps) request.meetingId m
              (m.withQueue.setItem request.requestId ⟨receipts, none⟩) := by
          intro receipts hreceipts
          refine .unfinished request.requestId _ hcut ?_ (hviews _)
          have := Unfinished.item (B := B) receipts.isPrivate
          rw [hview]
          unfold ItemDirectory.view
          rw [hreceipts]
          exact this
        rcases ht with ⟨hpresent, ht⟩ | ht
        · rw [ht]
          exact .folder hcut (by simpa using hpresent) rfl
        · simp only [mem_cons, not_mem_nil, or_false] at ht
          rcases ht with ht | ht | ht | ht | ht <;> rw [ht]
          · exact hunfinished _ rfl
          · exact hunfinished _ rfl
          · exact hunfinished _ rfl
          · exact hunfinished _ rfl
          · exact hunfinished _ rfl

/-- A refusal changes nothing, unless the receipt is too long to be read back. -/
theorem enqueueIn_error (hfits : Fits B request) {e : TranscriptionQueueError}
    (h : ((enqueueIn request).exec m).result = .error e) :
    Quiet m (((enqueueIn request).exec m).final m) := by
  cases hitem : m.item? request.requestId with
  | some => exact (meets_enqueueIn_known hitem).error e h
  | none =>
    cases hsource : loadSource request.meetingId request m with
    | error =>
      unfold enqueueIn
      rw [bind_inspect_of_error _ hsource]
      exact .refl m
    | ok =>
      rw [enqueueIn_of_new hsource hitem] at h
      rw [loadItem_eq_ok.mpr (ItemView.shows_request hfits)] at h
      cases h

/-! ### New claims -/

/-- The states of a new claim: its folder is made and then its receipt. -/
def claimStates (m : MeetingDirectory B) (id : Uuid) (item : ItemDirectory B)
    (claim : TranscriptionClaim) : List (MeetingDirectory B) :=
  (if item.claims.isSome then [] else [m.setClaims id item Directory.made]) ++
    (m.setClaims id item item.claimFolders ::
      m.setClaims id item (item.claimFolders.put claim.claimId Drawer.made) ::
      m.setClaims id item (item.claimFolders.put claim.claimId Drawer.empty) ::
      (Drawer.empty.newStates .claim (toVecPretty claim)).map fun folder =>
        m.setClaims id item (item.claimFolders.put claim.claimId folder))

/-- A new claim is linked behind the others and is the live one. -/
theorem ItemView.Shows.linkClaim_claim (h : v.Shows id item) (hnone : item.claim = none)
    (claim : TranscriptionClaim) (hfits : Fits B claim) (hid : claim.requestId = id)
    (hnew : ∀ e ∈ v.claims, e.1 ≠ claim.claimId) :
    ((v.addClaim claim.claimId).linkClaim claim.claimId .claim (toVecPretty claim)).Shows id
      { item with claim := some claim } := by
  have hlist : ((v.addClaim claim.claimId).linkClaim claim.claimId .claim (toVecPretty claim)).claims =
      v.claims ++ [(claim.claimId, fun other =>
        if other = .claim then some (toVecPretty claim) else none)] := by
    unfold ItemView.linkClaim ItemView.addClaim
    simp only [map_append, map_cons, map_nil, if_true]
    congr 1
    refine (map_congr_left fun e he => ?_).trans (map_id _)
    exact if_neg (hnew e he)
  refine { h with claim := ?_, coherent := ⟨h.coherent.1, h.coherent.2, h.coherent.3⟩ }
  rw [hlist]
  refine liveClaim_of_new (hnone ▸ h.claim) ⟨readJson_toVecPretty hfits, hid, ?_, nofun⟩
  exact readOptionalJson_eq_none.mpr rfl

/-- Making the folder of a claim and its receipt, from a request without a live
claim. -/
theorem claimIn_of_new {clock : UInt64} {directory : ItemDirectory B} {meeting : MeetingRecord}
    (hdirectory : m.item? id = some directory) (hshows : directory.view.Shows id item)
    (hopen : item.isOpen = true) (hnone : item.claim = none)
    (hsource : loadSource name item.request m = .ok meeting)
    (hnew : directory.claimFolders.entry claimId = none) :
    ((claimIn name id worker clock claimId).exec m).trace =
        claimStates m id directory ⟨.v1, id, claimId, worker, clock⟩ ∧
      ((claimIn name id worker clock claimId).exec m).result = loadItem ((directory.view.addClaim
        claimId).linkClaim claimId .claim (toVecPretty (⟨.v1, id, claimId, worker, clock⟩ :
          TranscriptionClaim))) id := by
  have hchmod : directory.claimFolders.chmod = directory.claimFolders :=
    chmod_of_private hshows.claimsPrivate
  have hagain : ∀ claims claims', (m.setClaims id directory claims).setClaims id
      { directory with claims := some claims } claims' = m.setClaims id directory claims' :=
    fun _ _ => setItem_setItem _ _ _ _
  have hdirs : (createClaimsDirectory id).exec m =
      ⟨(if directory.claims.isSome then [] else [m.setClaims id directory Directory.made]) ++
        [m.setClaims id directory directory.claimFolders], .ok ()⟩ := by
    rw [createClaimsDirectory_apply hdirectory, hchmod]
  have hfolder : (createClaimFolder id claimId).exec
      (m.setClaims id directory directory.claimFolders) =
        ⟨[m.setClaims id directory (directory.claimFolders.put claimId Drawer.made),
          m.setClaims id directory (directory.claimFolders.put claimId Drawer.empty)], .ok ()⟩ := by
    have := createClaimFolder_apply (item?_setClaims m id directory directory.claimFolders) hnew
    simpa only [ItemDirectory.claimFolders_some, hagain] using this
  have hreceipt : ∀ bytes, (createClaimReceipt id claimId .claim bytes).exec
      (m.setClaims id directory (directory.claimFolders.put claimId Drawer.empty)) =
        ⟨(Drawer.empty.newStates .claim bytes).map fun folder =>
          m.setClaims id directory (directory.claimFolders.put claimId folder), .ok ()⟩ := by
    intro bytes
    have := createClaimReceipt_of_free bytes
      (item?_setClaims m id directory (directory.claimFolders.put claimId Drawer.empty))
      (entry_put_self directory.claimFolders claimId Drawer.empty)
      (Drawer.linked_empty .claim)
    simpa only [ItemDirectory.claimFolders_some, hagain, put_put,
      Drawer.chmod_empty] using this
  have hitem : loadItemOf id m = .ok item :=
    loadItemOf_eq_ok.mpr ⟨_, view?_of_item? hdirectory, hshows⟩
  have hsource' := (loadSource_eq_ok.mp hsource).2.2.2
  obtain ⟨hcommit, hterminal⟩ := isOpen_iff.mp hopen
  unfold claimIn
  rw [bind_inspect_of_ok _ hitem, bind_inspect_of_ok _ hsource,
    bind_of_eq_ok_nil _ (congrArg (Outcome.mk []) hsource'),
    bind_lift_of_ok _ _ (refuseIf_of_not (by simp [hcommit, hterminal])),
    bind_lift_of_ok _ _ (refuseIf_of_not (by simp [hnone]))]
  simp only
  rw [bind_of_eq_ok _ hdirs, getLastD_concat, bind_of_eq_ok _ hfolder]
  rw [show List.getLastD _ _ = m.setClaims id directory
    (directory.claimFolders.put claimId Drawer.empty) from rfl, bind_of_eq_ok _ (hreceipt _)]
  refine ⟨?_, ?_⟩
  · simp only [claimStates, inspect_trace, append_nil, append_assoc]
    rfl
  · rw [inspect_result]
    unfold loadItemOf
    rw [show List.getLastD _ _ = m.setClaims id directory (directory.claimFolders.put claimId
      (Drawer.empty.link .claim (toVecPretty (⟨.v1, id, claimId, worker, clock⟩ :
        TranscriptionClaim)))) from rfl,
      view?_of_item? (item?_setClaims m id directory _),
      view_newClaim hnew .claim _ rfl]
    rfl

/-- The request can be claimed and the name of the claim is new: `claim` makes
its folder. -/
def ClaimsNew (name : String) (m : MeetingDirectory B) (id claimId : Uuid) : Prop :=
  ∃ v item, m.view? id = some v ∧ v.Shows id item ∧ item.isOpen = true ∧ item.claim = none ∧
    (∃ meeting, loadSource name item.request m = .ok meeting) ∧ ∀ e ∈ v.claims, e.1 ≠ claimId

/-- The same in terms of the directory of the request. -/
theorem ClaimsNew.directory {id claimId : Uuid} (h : ClaimsNew name m id claimId) :
    ∃ directory item meeting, m.item? id = some directory ∧ directory.view.Shows id item ∧
      item.isOpen = true ∧ item.claim = none ∧ loadSource name item.request m = .ok meeting ∧
      (∀ e ∈ directory.view.claims, e.1 ≠ claimId) ∧
      directory.claimFolders.entry claimId = none := by
  obtain ⟨v, item, hv, hshows, hopen, hnone, ⟨meeting, hsource⟩, hnew⟩ := h
  obtain ⟨directory, hdirectory, rfl⟩ := item?_of_view? hv
  refine ⟨directory, item, meeting, hdirectory, hshows, hopen, hnone, hsource, hnew, ?_⟩
  cases hentry : directory.claimFolders.entry claimId with
  | none => rfl
  | some folder =>
    exact absurd rfl (hnew (claimId, folder.linked)
      (mem_map.mpr ⟨_, mem_entries.mpr hentry, rfl⟩))

/-- Otherwise it changes nothing; a claim whose folder is there has its receipt,
too. -/
theorem meets_claimIn_known (h : ¬ ClaimsNew name m id claimId) (worker : String) (clock : UInt64) :
    Meets (claimIn name id worker clock claimId) m (Quiet m) (fun _ t => Quiet m t)
      (fun _ t => Quiet m t) := by
  unfold claimIn
  refine Meets.bind_inspect (fun item hitem => ?_) fun _ _ => .refl m
  refine Meets.bind_inspect (fun meeting hsource => ?_) fun _ _ => .refl m
  refine Meets.bind_inspect (fun _ _ => ?_) fun _ _ => .refl m
  refine Meets.bind_lift (fun _ hopen => ?_) fun _ _ => .refl m
  refine Meets.bind_lift (fun _ hnone => ?_) fun _ _ => .refl m
  obtain ⟨v, hv, hshows⟩ := loadItemOf_eq_ok.mp hitem
  rw [refuseIf_eq_ok] at hopen
  rw [refuseIf_eq_ok, Option.not_isSome_iff_eq_none] at hnone
  obtain ⟨directory, hdirectory, rfl⟩ := item?_of_view? hv
  have hold : ∃ folder, directory.claimFolders.entry claimId = some folder := by
    by_contra hnew
    refine h ⟨_, item, hv, hshows, isOpen_of_not hopen, hnone, ⟨meeting, hsource⟩, fun e he heq => ?_⟩
    obtain ⟨⟨k, folder⟩, hmem, rfl⟩ := mem_map.mp he
    subst heq
    exact hnew ⟨folder, mem_entries.mp hmem⟩
  obtain ⟨folder, hfolder⟩ := hold
  have hagain : ∀ claims claims', (m.setClaims id directory claims).setClaims id
      { directory with claims := some claims } claims' = m.setClaims id directory claims' :=
    fun _ _ => setItem_setItem _ _ _ _
  have hpresent : directory.claims.isSome = true := by
    unfold ItemDirectory.claimFolders at hfolder
    cases hclaims : directory.claims with
    | none => simp [hclaims] at hfolder
    | some => rfl
  have hsame : ∀ folder' : Drawer ClaimReceipt B, folder'.linked = folder.linked →
      Quiet m (m.setClaims id directory (directory.claimFolders.put claimId folder')) :=
    fun folder' h => quiet_setItem (by rw [view_putClaim hfolder h, hv])
  have hchmod : directory.claimFolders.chmod = directory.claimFolders :=
    chmod_of_private hshows.claimsPrivate
  have htaken : (folder.linked .claim).isSome = true := by
    have hmem : (claimId, folder.linked) ∈ directory.view.claims :=
      mem_map.mpr ⟨_, mem_entries.mpr hfolder, rfl⟩
    obtain ⟨claim, _, hreads⟩ := claimRead_of_liveClaim hshows.claim _ hmem
    obtain ⟨bytes, hbytes⟩ := isSome_of_readJson hreads.claimRead
    rw [show folder.linked .claim = some bytes from hbytes]
    rfl
  refine Meets.bind (Meets.of_eq_ok (createClaimsDirectory_apply hdirectory) (fun t ht => ?_) ?_)
  · rw [if_pos hpresent, hchmod, ← put_self hfolder, nil_append,
      mem_singleton] at ht
    exact ht ▸ hsame folder rfl
  rw [getLastD_concat, hchmod]
  have hchmoded := createClaimFolder_of_present
    (item?_setClaims m id directory directory.claimFolders) hfolder
  simp only [ItemDirectory.claimFolders_some, hagain] at hchmoded
  refine Meets.bind (Meets.of_eq_ok hchmoded (fun t ht => ?_) ?_)
  · rw [mem_singleton] at ht
    exact ht ▸ hsame _ rfl
  have hrefused := createClaimReceipt_of_taken
    (toVecPretty (⟨.v1, id, claimId, worker, clock⟩ : TranscriptionClaim))
    (item?_setClaims m id directory (directory.claimFolders.put claimId folder.chmod))
    (entry_put_self directory.claimFolders claimId folder.chmod) htaken
  simp only [ItemDirectory.claimFolders_some, hagain, put_put] at hrefused
  refine Meets.bind (Meets.of_eq_error hrefused (fun t ht => ?_) (hsame _ rfl))
  obtain ⟨folder', hmem, rfl⟩ := mem_map.mp ht
  simp only [mem_cons, not_mem_nil, or_false] at hmem
  rcases hmem with rfl | rfl | rfl | rfl <;> exact hsame _ rfl

/-- The directory `claims/` of a request is there. -/
def hasClaims (m : MeetingDirectory B) (id : Uuid) : Bool :=
  ((m.item? id).bind ItemDirectory.claims).isSome

/-- `claim` stopped anywhere. -/
theorem claimIn_cut (hworker : worker.utf8ByteSize ≤ 256) (hfree : free id) (clock : UInt64)
    (claimId : Uuid) (steps : Nat) :
    QueueEffect free fresh oversized (ClaimsNew name m id claimId ∧ StopsUnfinished (hasClaims m id) steps)
      name m ((((claimIn name id worker clock claimId).exec m).trace.take steps).getLastD m) := by
  by_cases hnew : ClaimsNew name m id claimId
  · obtain ⟨directory, item, meeting, hdirectory, hshows, hopen, hnone, hsource, hnewId, hfolder⟩ :=
      hnew.directory
    have hv := view?_of_item? hdirectory
    have hfits : Fits B (⟨.v1, id, claimId, worker, clock⟩ : TranscriptionClaim) :=
      TranscriptionClaim.fits hworker
    have hlinked : ∀ folder : Drawer ClaimReceipt B, (folder.linked = fun other =>
        if other = .claim then some (toVecPretty (⟨.v1, id, claimId, worker, clock⟩ :
          TranscriptionClaim)) else none) → QueueEffect free fresh oversized
        (ClaimsNew name m id claimId ∧ StopsUnfinished (hasClaims m id) steps) name m
        (m.setClaims id directory (directory.claimFolders.put claimId folder)) := by
      intro folder hlinked
      refine .claim id _ item _ hv hshows hopen hnone hfree rfl hnewId hfits ?_
      rw [← view_newClaim hfolder .claim _ hlinked]
      exact becomes_setItem m id _
    rw [(claimIn_of_new hdirectory hshows hopen hnone hsource hfolder).1]
    rcases cut_directoryAndReceipt (rfl : _ = ((claimStates m id directory _).take steps).getLastD m)
      with ht | ⟨hstops, ht⟩
    · simp only [mem_cons, not_mem_nil, or_false] at ht
      rcases ht with ht | ht | ht | ht <;> rw [ht]
      · exact .quiet (.refl m)
      · exact .quiet (quiet_setItem hv)
      · exact hlinked _ rfl
      · exact hlinked _ rfl
    · have hcut : ClaimsNew name m id claimId ∧ StopsUnfinished (hasClaims m id) steps := by
        refine ⟨hnew, ?_⟩
        unfold hasClaims
        rwa [hdirectory]
      have hunfinished : ∀ folder : Drawer ClaimReceipt B, (folder.linked = fun _ => none) →
          QueueEffect free fresh oversized
          (ClaimsNew name m id claimId ∧ StopsUnfinished (hasClaims m id) steps) name m
          (m.setClaims id directory (directory.claimFolders.put claimId folder)) := by
        intro folder hlinked
        refine .unfinished id (directory.view.addClaim claimId) hcut
          (by rw [hv]; exact .claim _ claimId hnewId) ?_
        rw [← view_addClaim hfolder folder hlinked]
        exact becomes_setItem m id _
      rcases ht with ⟨habsent, ht⟩ | ht
      · rw [ht]
        refine .unfinished id { directory.view with claimsPrivate := false } hcut
          (by rw [hv]; exact .claims _) ?_
        have hview : ({ directory with claims := some Directory.made } : ItemDirectory B).view =
            { directory.view with claimsPrivate := false } := by
          have hclaims : directory.claims = none := by simpa using habsent
          unfold ItemDirectory.view ItemDirectory.claimFolders
          rw [hclaims]
          rfl
        rw [← hview]
        exact becomes_setItem m id _
      · simp only [mem_cons, not_mem_nil, or_false] at ht
        rcases ht with ht | ht | ht | ht | ht <;> rw [ht]
        · exact hunfinished _ rfl
        · exact hunfinished _ rfl
        · exact hunfinished _ rfl
        · exact hunfinished _ rfl
        · exact hunfinished _ rfl
  · exact .quiet ((meets_claimIn_known hnew worker clock).cut (.refl m) steps)

/-- A refusal changes nothing. -/
theorem claimIn_error (hworker : worker.utf8ByteSize ≤ 256) {clock : UInt64}
    {e : TranscriptionQueueError}
    (h : ((claimIn name id worker clock claimId).exec m).result = .error e) :
    Quiet m (((claimIn name id worker clock claimId).exec m).final m) := by
  by_cases hnew : ClaimsNew name m id claimId
  · obtain ⟨directory, item, meeting, hdirectory, hshows, hopen, hnone, hsource, hnewId, hfolder⟩ :=
      hnew.directory
    have hlinked := hshows.linkClaim_claim hnone ⟨.v1, id, claimId, worker, clock⟩
      (TranscriptionClaim.fits hworker) rfl hnewId
    rw [(claimIn_of_new hdirectory hshows hopen hnone hsource hfolder).2,
      loadItem_eq_ok.mpr hlinked] at h
    cases h
  · exact (meets_claimIn_known hnew worker clock).error e h

/-! ### Results -/

/-- Storing a transcript keeps every artifact. -/
theorem storeTranscript_keeps [DecidableEq B] (bytes : B) (transcript : ArtifactRef) (nonce : Uuid) :
    Moves (Keeps MeetingPath.IsEntry) (storeTranscript bytes transcript nonce) := by
  have hbind : ∀ {α β : Type} {first : Durable (ArtifactTree B) TranscriptionQueueError α}
      {next : α → Durable (ArtifactTree B) TranscriptionQueueError β},
      Moves (Keeps MeetingPath.IsEntry) first → (∀ a, Moves (Keeps MeetingPath.IsEntry) (next a)) →
      Moves (Keeps MeetingPath.IsEntry) (first >>= next) :=
    fun hfirst hnext => Moves.bind Keeps.refl (fun _ _ _ => Keeps.trans) hfirst hnext
  unfold storeTranscript
  apply hbind (Moves.mapError (createPrivateDir_keeps _))
  intro _
  refine hbind (Moves.inspect _) fun _ => hbind (Moves.inspect _) fun found => ?_
  cases found with
  | true => exact hbind (Moves.inspect _) fun existing => Moves.lift _
  | false =>
    apply hbind (Moves.lift _)
    intro parent
    apply hbind (Moves.mapError (createPrivateDir_keeps _))
    intro _
    exact Moves.mapError (durableCreateNew_keeps _ _ (by simp [MeetingPath.IsEntry]))

omit [Platform B] in
/-- Work on the artifacts that keeps them is not seen. -/
theorem meets_inTree {α ε : Type} {program : Durable (ArtifactTree B) ε α}
    (h : Moves (Keeps MeetingPath.IsEntry) program) :
    Meets (inTree program) m (Quiet m) (fun _ t => Quiet m t)
      (fun _ t => Quiet m t) := by
  have hquiet : ∀ tree, Keeps MeetingPath.IsEntry m.tree tree → Quiet m { m with tree } :=
    fun tree htree => ⟨rfl, rfl, fun h => h, htree⟩
  unfold inTree
  exact Meets.zoom rfl (h.meets Keeps.refl hquiet)

omit [Platform B] in
theorem path_ne_of_verifyTranscriptRef {reference : ArtifactRef}
    (h : verifyTranscriptRef reference = .ok ()) : reference.relativePath ≠ "meeting.json" := by
  unfold verifyTranscriptRef at h
  simp only [bind_eq_ok, refuseIf_eq_ok, not_or, not_not] at h
  obtain ⟨_, ⟨hstart, -⟩, -⟩ := h
  rw [String.startsWith_string_iff] at hstart
  intro heq
  rw [heq] at hstart
  exact absurd hstart (by decide)

/-- `admit_result` admits a result or changes nothing that is seen. -/
theorem admitResultIn_effect [DecidableEq B] (hsound : m.Sound name) (id : Uuid) (bytes : B)
    (transcript : ArtifactRef) (clock : UInt64) (nonce : Uuid)
    (hoversized : ¬ oversized → Fits B (⟨.v1, id, name, transcript, Platform.sha256 bytes, clock⟩ :
      TranscriptionResult)) :
    Meets (admitResultIn name id bytes transcript clock nonce) m
      (QueueEffect free fresh oversized unfinished name m)
      (fun _ t => QueueEffect free fresh oversized unfinished name m t)
      (fun _ t => ¬ oversized → Quiet m t) := by
  unfold admitResultIn
  refine Meets.bind_inspect (fun item hitem => ?_) fun _ _ _ => .refl m
  refine Meets.bind_inspect (fun meeting hsource => ?_) fun _ _ _ => .refl m
  refine Meets.bind_inspect (fun _ _ => ?_) fun _ _ _ => .refl m
  refine Meets.bind_lift (fun _ hended => ?_) fun _ _ _ => .refl m
  refine Meets.bind_lift (fun _ hdigest => ?_) fun _ _ _ => .refl m
  refine Meets.bind_lift (fun _ href => ?_) fun _ _ _ => .refl m
  obtain ⟨v, hv, hshows⟩ := loadItemOf_eq_ok.mp hitem
  rw [refuseIf_eq_ok] at hended
  have hopen := isOpen_of_not hended
  have hmeetingId := ((hsound id v hv).ofShows hshows).1.1
  refine Meets.bind ((meets_inTree (storeTranscript_keeps bytes transcript nonce)).mono
    (fun t ht => .quiet ht) (fun _ t ht => ?_) fun _ t ht _ => ht)
  refine Meets.bind_inspect (fun _ htranscript => ?_) fun _ _ _ => ht
  rw [mapError_eq_ok] at htranscript
  have hviewt : t.view? id = some v := by rw [ht.views, hv]
  cases hresult : item.result with
  | some =>
    have htaken : (v.receipts .result).isSome = true := by
      rw [← isSome_iff_of_readOptionalJson hshows.result, hresult]
      rfl
    exact Meets.bind ((meets_createReceipt_taken _ hviewt hshows.isPrivate htaken).mono
      (fun u hu => .quiet (ht.trans hu)) (fun _ _ h => h.elim) fun _ u hu _ => ht.trans hu)
  | none =>
    have hpath := path_ne_of_verifyTranscriptRef href
    rw [← hmeetingId] at hoversized
    obtain ⟨result, hdef⟩ : ∃ result : TranscriptionResult, result =
      ⟨.v1, id, item.request.meetingId, transcript, Platform.sha256 bytes, clock⟩ := ⟨_, rfl⟩
    have hid : result.requestId = id := by rw [hdef]
    have hdigestOf : validSha256 result.resultSha256 = true := by
      rw [hdef]
      exact Platform.validSha256_sha256 bytes
    have htranscriptOf : result.transcript = transcript := by rw [hdef]
    rw [← hdef] at hoversized
    simp only [← hdef]
    have heffect : ∀ u, Becomes t u t.record (setView t.view? id (v.link .result
        (toVecPretty result))) → QueueEffect free fresh oversized unfinished name m u := by
      intro u hu
      refine .result id v item meeting result hv hshows hopen hresult hsource hid hdigestOf
        (htranscriptOf ▸ hpath) ?_ hoversized (ht.becomes hu)
      rw [htranscriptOf]
      exact verifyArtifactRef_of_keeps hu.keepsArtifacts hpath htranscript
    refine (meets_receipt hviewt hshows.isPrivate (hshows.receipt_eq_none.1 hresult)).mono
      (fun u hu => ?_) (fun _ u hu => heffect u hu.2) fun _ u hu hsmall => ?_
    · rcases hu with hu | hu
      · exact .quiet (ht.trans hu)
      · exact heffect u hu
    · exact absurd (hshows.link_result hopen (hoversized hsmall)) (hu.1 _)

end Operations

end YawnApp.SessionCore
