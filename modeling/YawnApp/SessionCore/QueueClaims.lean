import YawnApp.SessionCore.QueueCrash

set_option autoImplicit false

/-!
# Who holds a claim

A claim is a folder below its request, and every look at the claims scans all
requests again.  `claim` is refused while another open request is claimed, so in
every run, stopped anywhere, open requests with a claim that is not released have
one identifier, and no request has two such claims.  `admit_result`, `commit`
and `fail` are given no claim, and leave the claims alone.
-/

namespace YawnApp.SessionCore

open YawnApp.Foundation TranscriptionQueue Directory

variable {B : Type} [Platform B]

/-! ## Claims of one meeting -/

section Meeting

variable {free : Uuid → Prop} {fresh : TranscriptionRequest → Prop} {oversized unfinished : Prop}
  {name : String} {m t : MeetingDirectory B} {v : ItemView B}

section

omit [Platform B]

theorem ItemView.unreleased_addClaim (v : ItemView B) (claimId : Uuid) :
    (v.addClaim claimId).unreleased = v.unreleased := by
  unfold unreleased addClaim
  rw [List.filter_append]
  simp [isUnreleased]

theorem Unfinished.unreleased {w : ItemView B} (h : Unfinished (some v) w) :
    w.unreleased = v.unreleased := by
  cases h with
  | claims => rfl
  | claim v claimId => exact v.unreleased_addClaim claimId

theorem Unfinished.isOpen {w : ItemView B} (h : Unfinished (some v) w) (hopen : w.IsOpen) :
    v.IsOpen := by
  cases h with
  | claims | claim => exact hopen

end

/-- What an effect does to the claims of a request: they stay, there is none left
that is not released, or the request is the one that was claimed. -/
theorem QueueEffect.claims (h : QueueEffect free fresh oversized unfinished name m t)
    (hsound : m.Sound name) : ∃ claimed : Option Uuid, (∀ id ∈ claimed, free id) ∧
      ∀ id w, t.view? id = some w →
        (∃ v, m.view? id = some v ∧ w.unreleased = v.unreleased ∧ (w.IsOpen → v.IsOpen)) ∨
        w.unreleased = [] ∨ (claimed = some id ∧ w.unreleased.length = 1) := by
  have hsame : ∀ {id : Uuid} {w : ItemView B}, m.view? id = some w →
      (∃ v, m.view? id = some v ∧ w.unreleased = v.unreleased ∧ (w.IsOpen → v.IsOpen)) ∨
        w.unreleased = [] ∨ ((none : Option Uuid) = some id ∧ w.unreleased.length = 1) :=
    fun {_ w} hw => .inl ⟨w, hw, rfl, fun h => h⟩
  have hset : ∀ {claimed : Option Uuid} {other : Uuid} {v' : ItemView B} {record : Option B},
      (∀ id ∈ claimed, free id) → Becomes m t record (setView m.view? other v') →
      ((∃ v, m.view? other = some v ∧ v'.unreleased = v.unreleased ∧ (v'.IsOpen → v.IsOpen)) ∨
        v'.unreleased = [] ∨ (claimed = some other ∧ v'.unreleased.length = 1)) →
      ∃ claimed : Option Uuid, (∀ id ∈ claimed, free id) ∧ ∀ id w, t.view? id = some w →
        (∃ v, m.view? id = some v ∧ w.unreleased = v.unreleased ∧ (w.IsOpen → v.IsOpen)) ∨
        w.unreleased = [] ∨ (claimed = some id ∧ w.unreleased.length = 1) := by
    intro claimed other v' record hfree hbecomes hv'
    refine ⟨claimed, hfree, fun id w hw => ?_⟩
    rw [hbecomes.views] at hw
    by_cases hother : id = other
    · subst hother
      rw [setView_self, Option.some.injEq] at hw
      exact hw ▸ hv'
    · rw [setView_of_ne v' hother] at hw
      exact .inl ⟨w, hw, rfl, fun h => h⟩
  have hnothing : ∀ id ∈ (none : Option Uuid), free id := nofun
  cases h with
  | quiet h => exact ⟨none, hnothing, fun id w hw => hsame (h.views ▸ hw)⟩
  | folder hcut hnone h =>
    refine ⟨none, hnothing, fun id w hw => hsame ?_⟩
    rwa [h, view?_madeQueue hnone] at hw
  | unfinished id v' hcut hv h =>
    generalize hold : m.view? id = old at hv
    cases old with
    | none =>
      cases hv with
      | item => exact hset hnothing h (.inr (.inl rfl))
    | some v => exact hset hnothing h (.inl ⟨v, hold, hv.unreleased, hv.isOpen⟩)
  | request _ _ _ _ _ _ _ _ h =>
    exact hset hnothing h (.inr (.inl rfl))
  | claim id _ _ claim _ hshows _ hnone hfree hid hnew hfits h =>
    have hlinked := hshows.linkClaim_claim hnone claim hfits hid hnew
    obtain ⟨e, he, -⟩ := hlinked.unreleased_of_some rfl
    have hclaimed : ∀ other ∈ some id, free other := by
      intro other hother
      cases hother
      exact hfree
    exact hset hclaimed h (.inr (.inr ⟨rfl, by rw [he]; rfl⟩))
  | release id v item claim release hv hshows hclaim hid hclaimId h =>
    obtain ⟨receipts, hmem, hreads, -⟩ := (hsound id v hv).liveFolder hshows hclaim
    have hlinked := hshows.linkClaim_release (hsound id v hv).nodup hmem hreads release hid hclaimId
    exact hset hnothing h (.inr (.inl (hlinked.unreleased_of_none rfl)))
  | result _ v _ _ _ hv _ _ _ _ _ _ _ _ _ h =>
    exact hset hnothing h (.inl ⟨v, hv, rfl, ItemView.isOpen_of_link⟩)
  | publish id _ _ _ _ _ _ _ _ _ _ _ _ _ h =>
    exact ⟨none, hnothing, fun id w hw => hsame (h.views ▸ hw)⟩
  | commit _ v _ _ _ _ hv _ _ _ _ _ _ _ _ h | terminal _ v _ _ hv _ _ _ h =>
    exact hset hnothing h (.inl ⟨v, hv, rfl, ItemView.isOpen_of_link⟩)

/-- A meeting that loads still does, whatever the queue does. -/
theorem QueueEffect.loads (h : QueueEffect free fresh oversized unfinished name m t)
    (hm : ∃ meeting, loadMeeting m.reader name = .ok meeting) :
    ∃ meeting, loadMeeting t.reader name = .ok meeting := by
  obtain ⟨meeting, hload⟩ := hm
  have hsame : t.record = m.record → ∃ meeting, loadMeeting t.reader name = .ok meeting :=
    fun hrecord => ⟨meeting, loadMeeting_of_record hrecord hload⟩
  cases h with
  | quiet h => exact hsame h.record
  | folder hcut hnone h => exact hsame (by rw [h])
  | unfinished _ _ _ _ h | request _ _ _ _ _ _ _ _ h | claim _ _ _ _ _ _ _ _ _ _ _ _ h
  | release _ _ _ _ _ _ _ _ _ _ h | result _ _ _ _ _ _ _ _ _ _ _ _ _ _ _ h => exact hsame h.record
  | publish _ _ _ result meeting _ _ _ _ hmeeting _ _ hcaptured hvalid h =>
    have hpublishes : Publishes name m meeting result.transcript t.record :=
      .inr ⟨hcaptured, hvalid, h.record⟩
    obtain ⟨found, hfound, -⟩ := hpublishes.loads hmeeting
    exact ⟨found, hfound⟩
  | commit _ _ _ _ _ _ _ _ _ _ hmeeting _ _ hpublishes =>
    obtain ⟨found, hfound, -⟩ := hpublishes.loads hmeeting
    exact ⟨found, hfound⟩
  | terminal _ _ _ _ _ _ _ _ h => exact hsame h.record

end Meeting

/-! ## Claims of the library -/

section Library

variable [DecidableEq B] {library : Meetings B}

/-- Every meeting of the library loads. -/
def Loadable (library : Meetings B) : Prop :=
  Everywhere (fun name m => ∃ meeting, loadMeeting m.reader name = .ok meeting) library

/-- A request of the meeting `name` that is open and has a claim that is not
released. -/
def HoldsClaim (library : Meetings B) (name : String) (id : Uuid) : Prop :=
  ∃ m v, library.entry name = some m ∧ m.view? id = some v ∧ v.IsOpen ∧ v.unreleased ≠ []

/-- No request has two claims that are not released. -/
def ClaimedOnce (library : Meetings B) : Prop :=
  Everywhere (fun _ m => ∀ id v, m.view? id = some v → v.unreleased.length ≤ 1) library

/-- Open requests with a claim that is not released have one identifier. -/
def OneHolder (library : Meetings B) : Prop :=
  ∀ name id name' id', HoldsClaim library name id → HoldsClaim library name' id' → id = id'

omit [DecidableEq B] in
/-- The look of `claim` at the other requests finds each that is claimed. -/
theorem eq_of_noOtherClaim (hloads : Loadable library) {id other : Uuid} {name : String}
    (hfree : noOtherClaim id library = .ok ()) (hholds : HoldsClaim library name other) :
    other = id := by
  obtain ⟨m, v, hm, hv, hopen, hclaimed⟩ := hholds
  obtain ⟨meeting, hload⟩ := hloads name m hm
  unfold noOtherClaim at hfree
  rw [bind_eq_ok] at hfree
  obtain ⟨d, hd, hnone⟩ := hfree
  rw [refuseIf_eq_ok] at hnone
  obtain ⟨-, hlisted⟩ := exists_discover.mp ⟨d, hd⟩ name m meeting ⟨hm, hload⟩
  obtain ⟨item, hitem⟩ := hlisted other v hv
  obtain ⟨w, hw, hshows⟩ := view?_of_listedItem hitem
  rw [hv, Option.some.injEq] at hw
  subst hw
  by_contra hne
  refine hnone ⟨item, ?_, ?_, ?_, ?_⟩
  · exact (mem_items_discover hd).mpr ⟨name, m, meeting, other, ⟨hm, hload⟩, hitem⟩
  · rw [hshows.requestId]
    exact hne
  · by_contra hnoClaim
    exact hclaimed (hshows.unreleased_of_none (by simpa using hnoClaim))
  · exact hshows.isOpen_view.mpr hopen

omit [DecidableEq B] in
/-- The look finds nothing when only the request itself is claimed. -/
theorem noOtherClaim_eq_ok {id : Uuid} (hd : ∃ d, discover library = .ok d)
    (hall : ∀ name other, HoldsClaim library name other → other = id) :
    noOtherClaim id library = .ok () := by
  obtain ⟨d, hd⟩ := hd
  unfold noOtherClaim
  rw [hd, ok_bind, refuseIf_eq_ok]
  rintro ⟨item, hitem, hne, hclaim, hopen⟩
  obtain ⟨name, m, meeting, other, hloads, hlisted⟩ := (mem_items_discover hd).mp hitem
  obtain ⟨v, hv, hshows⟩ := view?_of_listedItem hlisted
  obtain ⟨claim, hclaim⟩ := Option.isSome_iff_exists.mp hclaim
  obtain ⟨e, he, -⟩ := hshows.unreleased_of_some hclaim
  refine hne (hshows.requestId.trans (hall name other ⟨m, v, hloads.entry, hv, ?_, ?_⟩))
  · exact hshows.isOpen_view.mp hopen
  · rw [he]
    exact List.cons_ne_nil _ _

/-- `claim` that is not stopped makes its request hold a claim. -/
theorem cut_claim {id claimId : Uuid} {name worker : String} {m : MeetingDirectory B}
    (hworker : worker ≠ "" ∧ worker.utf8ByteSize ≤ 256) (hfree : noOtherClaim id library = .ok ())
    (hlocate : locate id library = .ok name) (hm : library.entry name = some m)
    (hnew : ClaimsNew name m id claimId) (clock : UInt64) :
    ∃ m' w, cut QueueCall.states library (.claim id worker clock claimId, 9) = library.put name m' ∧
      m'.view? = setView m.view? id w ∧ w.IsOpen ∧ w.unreleased ≠ [] ∧ m'.record = m.record ∧
      m'.tree = m.tree ∧ ∀ item, (∀ v, m.view? id = some v → v.Shows id item) →
        ∃ claim, w.Shows id { item with claim := some claim } := by
  obtain ⟨directory, item, meeting, hdirectory, hshows, hopen, hnone, hsource, hnewId, hfolder⟩ :=
    hnew.directory
  let claim : TranscriptionClaim := ⟨.v1, id, claimId, worker, clock⟩
  have hlinked := hshows.linkClaim_claim hnone claim (TranscriptionClaim.fits hworker.2) rfl hnewId
  obtain ⟨e, he, -⟩ := hlinked.unreleased_of_some rfl
  have hexec : (QueueCall.claim id worker clock claimId).program.exec library =
      (within name (claimIn name id worker clock claimId)).exec library := by
    change (TranscriptionQueue.claim id worker clock claimId).exec library = _
    unfold TranscriptionQueue.claim
    rw [Durable.bind_lift_of_ok _ _ (refuseIf_of_not (by simp [hworker.1, hworker.2])),
      Durable.bind_inspect_of_ok _ hfree, inLocated_of_located hlocate]
  refine ⟨m.setClaims id directory (directory.claimFolders.put claimId
    (Drawer.empty.link .claim (toVecPretty claim))), (directory.view.addClaim claimId).linkClaim
      claimId .claim (toVecPretty claim), ?_, ?_, hlinked.isOpen_view.mp hopen, ?_, rfl, rfl,
      fun found hfound => ⟨claim, ?_⟩⟩
  · unfold cut QueueCall.states
    rw [hexec, cut_within hm,
      (claimIn_of_new hdirectory hshows hopen hnone hsource hfolder).1]
    unfold claimStates
    cases directory.claims <;> rfl
  · rw [MeetingDirectory.setClaims, MeetingDirectory.view?_setItem,
      view_newClaim hfolder .claim _ rfl]
  · rw [he]
    exact List.cons_ne_nil _ _
  · have hsame : found = item :=
      (hfound _ (MeetingDirectory.view?_of_item? hdirectory)).unique hshows
    exact hsame ▸ hlinked

/-- All requests of the library have one identifier. -/
def OnlyRequest (library : Meetings B) (id : Uuid) : Prop :=
  Everywhere (fun _ m => ∀ other v, m.view? other = some v → other = id) library

/-- A request that is enqueued for a meeting without requests, where it is found,
can be claimed at once, whatever other meetings have requests of its identifier. -/
theorem run_enqueue_claim {request : TranscriptionRequest} {m : MeetingDirectory B}
    {meeting : MeetingRecord} {worker : String} (hsound : SoundLibrary library)
    (haccepted : Everywhere Accepted library) (honly : OnlyRequest library request.requestId)
    (hvalid : request.validate = .ok ()) (hm : library.entry request.meetingId = some m)
    (hqueue : m.queue = none) (hsource : loadSource request.meetingId request m = .ok meeting)
    (hfits : Fits B request) (hworker : worker ≠ "" ∧ worker.utf8ByteSize ≤ 256)
    (hfirst : ∀ before after, library.names = before ++ request.meetingId :: after →
      ∀ other ∈ before, ∀ m, library.entry other = some m → m.queue = none)
    (clock : UInt64) (claimId : Uuid) :
    ∃ m' w, run QueueCall.states library
        [(.enqueue request, 9), (.claim request.requestId worker clock claimId, 9)] =
          library.put request.meetingId m' ∧
      m'.view? request.requestId = some w ∧ w.IsOpen ∧ w.unreleased ≠ [] ∧
      SoundLibrary (library.put request.meetingId m') ∧
      Everywhere Accepted (library.put request.meetingId m') ∧
      OnlyRequest (library.put request.meetingId m') request.requestId ∧
      m'.record = m.record ∧ m'.tree = m.tree ∧
      ∃ claim, w.Shows request.requestId ⟨request, some claim, none, none, none⟩ := by
  have hnew : m.item? request.requestId = none := by
    unfold MeetingDirectory.item?
    rw [hqueue]
    rfl
  let m₁ := m.withQueue.setItem request.requestId
    ⟨Drawer.empty.link .request (toVecPretty request), none⟩
  have hcut : cut QueueCall.states library (.enqueue request, 9) =
      library.put request.meetingId m₁ := by
    rw [cut_enqueue_of_new hvalid hm hsource hnew]
    unfold enqueueStates
    rw [hqueue]
    rfl
  have hentry : (library.put request.meetingId m₁).entry request.meetingId = some m₁ :=
    entry_put_self _ _ _
  have hviews : m₁.view? = setView m.view? request.requestId
      (ItemView.empty.link .request (toVecPretty request)) := by
    have := m.withQueue.view?_setItem request.requestId
      ⟨Drawer.empty.link .request (toVecPretty request), none⟩
    rwa [(quiet_withQueue m).views] at this
  have hview : m₁.view? request.requestId = some (ItemView.empty.link .request (toVecPretty request)) := by
    rw [hviews, setView_self]
  have hshows := ItemView.shows_request (B := B) hfits
  have hsound₁ : SoundLibrary (library.put request.meetingId m₁) := hcut ▸ hsound.cut _
  have haccepted₁ : Everywhere Accepted (library.put request.meetingId m₁) := by
    rw [← hcut]
    refine accepted_cut hsound haccepted (not_not.mpr hfits) ?_
    rintro ⟨-, m', hm', -, hstops⟩
    rw [hm, Option.some.injEq] at hm'
    subst hm'
    rw [hqueue] at hstops
    have hnine : ¬ SessionCore.StopsUnfinished false 9 := by decide
    exact hnine hstops
  have honly₁ : OnlyRequest (library.put request.meetingId m₁) request.requestId := by
    refine everywhere_put honly fun other v hv => ?_
    by_contra hne
    rw [hviews, setView_of_ne _ hne, view?_of_queue_none hqueue] at hv
    cases hv
  have hfree : noOtherClaim request.requestId (library.put request.meetingId m₁) = .ok () := by
    refine noOtherClaim_eq_ok (exists_discover_of_accepted haccepted₁) ?_
    rintro name other ⟨m', v, hm', hv, -⟩
    exact honly₁ name m' hm' other v hv
  have hlocate : locate request.requestId (library.put request.meetingId m₁) =
      .ok request.meetingId := by
    obtain ⟨before, after, hsplit⟩ := List.append_of_mem (mem_names hm)
    refine locate_eq_ok.mpr ⟨⟨m₁, _, hentry, hview⟩, before, after, ?_, fun other hother m' hm' => ?_⟩
    · rw [names_put_of_mem _ (mem_names hm), hsplit]
    · have hne : other ≠ request.meetingId := by
        rintro rfl
        have hnodup := library.nodup
        rw [hsplit, List.nodup_append] at hnodup
        exact hnodup.2.2 _ hother _ List.mem_cons_self rfl
      rw [entry_put_of_ne _ hne] at hm'
      exact view?_of_queue_none (hfirst before after hsplit other hother m' hm') _
  have hclaims : ClaimsNew request.meetingId m₁ request.requestId claimId :=
    ⟨_, _, hview, hshows, rfl, rfl, ⟨meeting, hsource⟩, nofun⟩
  obtain ⟨m', w, hcut', hviews', hopen, hclaimed, hrecord, htree, hshown⟩ :=
    cut_claim hworker hfree hlocate hentry hclaims clock
  rw [put_put] at hcut'
  have hsound₂ := hsound₁.cut (.claim request.requestId worker clock claimId, 9)
  have haccepted₂ : Everywhere Accepted (cut QueueCall.states (library.put request.meetingId m₁)
      (.claim request.requestId worker clock claimId, 9)) := by
    refine accepted_cut hsound₁ haccepted₁ (fun h => h) ?_
    rintro ⟨-, -, name, m'', hlocate', hm'', -, hstops⟩
    have hname : request.meetingId = name := Except.ok.inj (hlocate.symm.trans hlocate')
    subst hname
    rw [hentry, Option.some.injEq] at hm''
    subst hm''
    have hnone : hasClaims m₁ request.requestId = false := by
      unfold hasClaims
      rw [MeetingDirectory.item?_setItem_self]
      rfl
    rw [hnone] at hstops
    have hnine : ¬ SessionCore.StopsUnfinished false 9 := by decide
    exact hnine hstops
  rw [hcut'] at hsound₂ haccepted₂
  refine ⟨m', w, ?_, ?_, hopen, hclaimed, hsound₂, haccepted₂, everywhere_put honly ?_, hrecord, htree,
    hshown ⟨request, none, none, none, none⟩ fun v hv => ?_⟩
  · rw [run_cons, hcut, run_cons, hcut', run_nil]
  · rw [hviews', setView_self]
  · intro other v hv
    by_contra hne
    rw [hviews', setView_of_ne _ hne, hviews, setView_of_ne _ hne, view?_of_queue_none hqueue] at hv
    cases hv
  · rw [hview, Option.some.injEq] at hv
    exact hv ▸ hshows

/-- What the claims keep true. -/
structure ClaimsKept (library : Meetings B) : Prop where
  sound : SoundLibrary library
  loads : Loadable library
  once : ClaimedOnce library
  holder : OneHolder library

theorem ClaimsKept.cut (h : ClaimsKept library) (attempt : QueueCall B × Nat) :
    ClaimsKept (cut QueueCall.states library attempt) := by
  have heffect := QueueCall.cut_effect h.sound attempt
  refine ⟨h.sound.cut attempt, heffect.everywhere (fun _ _ _ _ h hm => h.loads hm) h.loads, ?_, ?_⟩
  · rcases heffect with heq | ⟨name, m, m', hm, heq, heffect⟩
    · rw [heq]
      exact h.once
    rw [heq]
    apply everywhere_put h.once
    intro id w hw
    obtain ⟨claimed, -, hviews⟩ := heffect.claims (h.sound name m hm)
    rcases hviews id w hw with ⟨v, hv, hsame, -⟩ | hnone | ⟨-, hone⟩
    · rw [hsame]
      exact h.once name m hm id v hv
    · simp [hnone]
    · omega
  · rcases heffect with heq | ⟨name, m, m', hm, heq, heffect⟩
    · rw [heq]
      exact h.holder
    rw [heq]
    obtain ⟨claimed, hfree, hviews⟩ := heffect.claims (h.sound name m hm)
    have hholds : ∀ other id, HoldsClaim (library.put name m') other id →
        HoldsClaim library other id ∨ claimed = some id := by
      rintro other id ⟨m₁, w, hm₁, hw, hopen, hclaimed⟩
      rw [entry_put] at hm₁
      split at hm₁
      · rename_i hother
        cases hm₁
        rcases hviews id w hw with ⟨v, hv, hsame, hstill⟩ | hnone | ⟨his, -⟩
        · exact .inl ⟨m, v, hother ▸ hm, hv, hstill hopen, hsame ▸ hclaimed⟩
        · exact absurd hnone hclaimed
        · exact .inr his
      · exact .inl ⟨m₁, w, hm₁, hw, hopen, hclaimed⟩
    intro first id second id' hfirst hsecond
    rcases hholds first id hfirst with hfirst | hfirst
    · rcases hholds second id' hsecond with hsecond | hsecond
      · exact h.holder first id second id' hfirst hsecond
      · exact eq_of_noOtherClaim h.loads (hfree id' hsecond) hfirst
    · rcases hholds second id' hsecond with hsecond | hsecond
      · exact (eq_of_noOtherClaim h.loads (hfree id hfirst) hsecond).symm
      · exact Option.some.inj (hfirst.symm.trans hsecond)

omit [DecidableEq B] in
theorem NothingEnqueued.claimsKept (h : NothingEnqueued library) (hloads : Loadable library) :
    ClaimsKept library where
  sound := h.sound
  loads := hloads
  once name m hm id v hv := by
    rw [view?_of_queue_none (h name m hm)] at hv
    cases hv
  holder name id name' id' := by
    rintro ⟨m, v, hm, hv, -⟩
    rw [view?_of_queue_none (h name m hm)] at hv
    cases hv

theorem claimsKept_run (h : NothingEnqueued library) (hloads : Loadable library)
    (attempts : List (QueueCall B × Nat)) : ClaimsKept (run QueueCall.states library attempts) :=
  run_invariant_of_cut (I := ClaimsKept) QueueCall.states (fun _ attempt hs => hs.cut attempt)
    attempts library (h.claimsKept hloads)

/-! ## Calls that are given no claim -/

/-- The calls that take a request further without naming a claim. -/
def QueueCall.NamesNoClaim : QueueCall B → Prop
  | .admitResult _ _ _ _ _ => True
  | .commit _ _ => True
  | .fail _ _ _ => True
  | _ => False

/-- Every `claims/` of the meeting is as it was. -/
def SameClaims (m t : MeetingDirectory B) : Prop :=
  ∀ id, (t.item? id).bind ItemDirectory.claims = (m.item? id).bind ItemDirectory.claims

section

omit [Platform B] [DecidableEq B]

theorem SameClaims.refl (m : MeetingDirectory B) : SameClaims m m := fun _ => rfl

theorem SameClaims.trans {m t u : MeetingDirectory B} (h : SameClaims m t) (h' : SameClaims t u) :
    SameClaims m u := fun id => (h' id).trans (h id)

end

omit [DecidableEq B] in
theorem createReceipt_sameClaims (id : Uuid) (receipt : QueueReceipt) (bytes : B) :
    Moves SameClaims (createReceipt id receipt bytes) := by
  unfold createReceipt MeetingDirectory.inReceipts MeetingDirectory.inItem
  refine Moves.mapError (Moves.zoom_of (S := fun item item' => item'.claims = item.claims)
    (Moves.zoom _ fun _ _ => rfl) fun m item hitem other => ?_)
  rw [MeetingDirectory.item?_setItem]
  split
  · rename_i hother
    rw [Option.bind_some, hitem, hother]
    cases m.item? id <;> rfl
  · rfl

omit [DecidableEq B] in
theorem publish_sameClaims (name : String) (meeting : MeetingRecord) (transcript : ArtifactRef) :
    Moves SameClaims (publish (B := B) name meeting transcript) := by
  have hwrite : ∀ change : MeetingDirectory B → MeetingDirectory B, (∀ m, (change m).queue = m.queue) →
      Moves SameClaims (Durable.write change : Durable _ TranscriptionQueueError Unit) := by
    intro change hchange
    apply Moves.step
    intro m t ht id
    cases ht
    unfold MeetingDirectory.item?
    rw [hchange]
  unfold publish
  split
  · exact Moves.pure _
  · refine Moves.bind SameClaims.refl (fun _ _ _ => SameClaims.trans) (Moves.lift _) fun _ => ?_
    refine Moves.bind SameClaims.refl (fun _ _ _ => SameClaims.trans) (Moves.lift _) fun bytes => ?_
    unfold MeetingDirectory.replaceRecord
    refine Moves.bind SameClaims.refl (fun _ _ _ => SameClaims.trans) (hwrite _ fun _ => rfl) fun _ => ?_
    refine Moves.bind SameClaims.refl (fun _ _ _ => SameClaims.trans) (hwrite _ fun _ => rfl) fun _ => ?_
    exact hwrite _ fun _ => rfl

/-- A call that names no claim leaves every claim as it was. -/
theorem QueueCall.sameClaims {call : QueueCall B} (h : call.NamesNoClaim) (name : String) :
    Moves SameClaims (call.inMeeting name) := by
  have hbind : ∀ {α β : Type} {first : Durable (MeetingDirectory B) TranscriptionQueueError α}
      {next : α → Durable (MeetingDirectory B) TranscriptionQueueError β},
      Moves SameClaims first → (∀ a, Moves SameClaims (next a)) → Moves SameClaims (first >>= next) :=
    fun hfirst hnext => Moves.bind SameClaims.refl (fun _ _ _ => SameClaims.trans) hfirst hnext
  cases call with
  | enqueue | claim | releaseClaim => exact h.elim
  | admitResult id transcriptBytes transcript clock nonce =>
    change Moves SameClaims (admitResultIn name id transcriptBytes transcript clock nonce)
    unfold admitResultIn
    refine hbind (Moves.inspect _) fun item => hbind (Moves.inspect _) fun meeting => ?_
    refine hbind (Moves.inspect _) fun _ => hbind (Moves.lift _) fun _ => ?_
    refine hbind (Moves.lift _) fun _ => hbind (Moves.lift _) fun _ => ?_
    refine hbind (Moves.zoom _ fun _ _ _ => rfl) fun _ => hbind (Moves.inspect _) fun _ => ?_
    exact hbind (createReceipt_sameClaims _ _ _) fun _ => Moves.inspect _
  | commit id clock =>
    change Moves SameClaims (commitIn name id clock)
    unfold commitIn
    refine hbind (Moves.inspect _) fun item => hbind (Moves.lift _) fun result => ?_
    refine hbind (Moves.inspect _) fun meeting => hbind (Moves.inspect _) fun _ => ?_
    apply hbind (Moves.inspect _)
    intro _
    cases item.commit with
    | some => exact hbind (Moves.lift _) fun _ => Moves.pure _
    | none =>
      refine hbind (Moves.lift _) fun _ => hbind (publish_sameClaims _ _ _) fun _ => ?_
      apply hbind (Moves.inspect _)
      intro _
      exact hbind (createReceipt_sameClaims _ _ _) fun _ => Moves.inspect _
  | fail id kind clock =>
    change Moves SameClaims (failIn name id kind clock)
    unfold failIn
    refine hbind (Moves.inspect _) fun item => hbind (Moves.inspect _) fun meeting => ?_
    refine hbind (Moves.inspect _) fun _ => hbind (Moves.lift _) fun _ => ?_
    apply hbind (Moves.lift _)
    intro _
    cases item.terminal with
    | some => exact hbind (Moves.lift _) fun _ => Moves.pure _
    | none => exact hbind (createReceipt_sameClaims _ _ _) fun _ => Moves.inspect _

/-- The directory `claims/` of a request. -/
def claimsOf (library : Meetings B) (name : String) (id : Uuid) :
    Option (Directory Uuid (Drawer ClaimReceipt B)) :=
  (library.entry name).bind fun m => (m.item? id).bind ItemDirectory.claims

theorem QueueCall.claimsOf_cut {call : QueueCall B} (h : call.NamesNoClaim) (steps : Nat)
    (name : String) (id : Uuid) :
    claimsOf (cut QueueCall.states library (call, steps)) name id = claimsOf library name id := by
  unfold cut states
  rcases call.exec_cases library with ⟨e, hexec⟩ | ⟨other, m, hm, -, hexec⟩
  · rw [hexec]
    simp
  rw [hexec, cut_within hm]
  unfold claimsOf
  rw [entry_put]
  split
  · rename_i hother
    rw [hother, hm, Option.bind_some, Option.bind_some]
    exact ((call.sameClaims h other).meets SameClaims.refl (I := SameClaims m) fun _ ht => ht).cut
      (.refl m) steps id
  · rfl

/-- In every run over meetings that load, stopped anywhere: open requests with a
claim that is not released have one identifier, no request has two such claims,
and a call that names no claim leaves all claims as they were. -/
theorem queueClaims_run (hempty : NothingEnqueued library) (hloads : Loadable library)
    (attempts : List (QueueCall B × Nat)) :
    OneHolder (run QueueCall.states library attempts) ∧
    ClaimedOnce (run QueueCall.states library attempts) ∧
    ∀ (call : QueueCall B) (steps : Nat), call.NamesNoClaim → ∀ name id,
      claimsOf (cut QueueCall.states (run QueueCall.states library attempts) (call, steps)) name id =
        claimsOf (run QueueCall.states library attempts) name id := by
  have hkept := claimsKept_run hempty hloads attempts
  exact ⟨hkept.holder, hkept.once, fun call steps hcall => QueueCall.claimsOf_cut hcall steps⟩

end Library

/-! ## Without a claim, and with two -/

theorem loadable_captured : Loadable capturedLibrary := by
  intro name m hm
  obtain ⟨rfl, rfl⟩ := eq_of_entry_captured hm
  exact ⟨capturedMeeting, loadMeeting_captured⟩

/-- A claim and its release. -/
theorem queueClaims_run_enqueue : ClaimedOnce (run QueueCall.states capturedLibrary
    [(.enqueue capturedRequest, 9), (.claim sampleOperationId "worker" 1754000010 sampleMeetingId, 9),
      (.releaseClaim sampleOperationId sampleMeetingId 1754000020, 9)]) :=
  (queueClaims_run nothingEnqueued_captured loadable_captured
    [(.enqueue capturedRequest, 9), (.claim sampleOperationId "worker" 1754000010 sampleMeetingId, 9),
      (.releaseClaim sampleOperationId sampleMeetingId 1754000020, 9)]).2.1

/-- A second captured meeting, listed behind the first. -/
def secondMeeting : MeetingRecord :=
  { capturedMeeting with meetingId := "7a1f6f0e-3d5c-4b8a-9c2d-5e4f3a2b1c0d" }

def secondDirectory : MeetingDirectory CapturedBytes :=
  ⟨some (toVecPretty secondMeeting), [], capturedTree, none⟩

def twoMeetings : Meetings CapturedBytes :=
  capturedLibrary.put secondMeeting.meetingId secondDirectory

def secondRequest : TranscriptionRequest :=
  { capturedRequest with meetingId := secondMeeting.meetingId }

/-- One request identifier is enqueued and claimed for the second meeting, and
then for the first. -/
def claimedTwice : List (QueueCall CapturedBytes × Nat) :=
  [(.enqueue secondRequest, 9),
    (.claim secondRequest.requestId "worker" 1754000010 sampleMeetingId, 9)] ++
  [(.enqueue capturedRequest, 9),
    (.claim capturedRequest.requestId "worker" 1754000030 sampleMeetingId, 9)]

/-- The second meeting and the request for it pass their checks. -/
theorem checks_secondMeeting :
    secondMeeting.validate CapturedBytes secondMeeting.meetingId = .ok () ∧
    verifySource secondDirectory.reader secondMeeting secondRequest = .ok () ∧
    secondRequest.validate = .ok () ∧ Fits CapturedBytes secondRequest := by
  decide +kernel

theorem loadMeeting_second :
    loadMeeting secondDirectory.reader secondMeeting.meetingId = .ok secondMeeting :=
  loadMeeting_of_read checks_secondMeeting.1 rfl

theorem loadSource_second :
    loadSource secondMeeting.meetingId secondRequest secondDirectory = .ok secondMeeting :=
  loadSource_eq_ok.mpr ⟨loadMeeting_second, rfl, rfl, checks_secondMeeting.2.1⟩

theorem validate_secondRequest : secondRequest.validate = .ok () :=
  checks_secondMeeting.2.2.1

theorem fits_secondRequest : Fits CapturedBytes secondRequest :=
  checks_secondMeeting.2.2.2

theorem nothingEnqueued_twoMeetings : NothingEnqueued twoMeetings :=
  everywhere_put nothingEnqueued_captured rfl

theorem loadable_twoMeetings : Loadable twoMeetings :=
  everywhere_put loadable_captured ⟨secondMeeting, loadMeeting_second⟩

theorem names_twoMeetings : twoMeetings.names = [sampleMeetingId.text, secondMeeting.meetingId] :=
  names_put_of_not_mem _ (by decide)

/-- Both requests hold a claim at the same time. -/
theorem holdsClaim_claimedTwice :
    HoldsClaim (run QueueCall.states twoMeetings claimedTwice) capturedRequest.meetingId
        capturedRequest.requestId ∧
      HoldsClaim (run QueueCall.states twoMeetings claimedTwice) secondRequest.meetingId
        secondRequest.requestId := by
  have hne : capturedRequest.meetingId ≠ secondRequest.meetingId := by decide
  have hsecond : twoMeetings.entry secondRequest.meetingId = some secondDirectory :=
    entry_put_self _ _ _
  have hfirst : ∀ m, (twoMeetings.put secondRequest.meetingId m).entry capturedRequest.meetingId =
      some capturedDirectory := fun m => (entry_put_of_ne m hne).trans
    ((entry_put_of_ne secondDirectory hne).trans (entry_put_self _ _ _))
  have hworker : "worker" ≠ "" ∧ "worker".utf8ByteSize ≤ 256 := ⟨by decide, by decide⟩
  have hstart := nothingEnqueued_twoMeetings.recoverable
  have hnone : OnlyRequest twoMeetings secondRequest.requestId := by
    intro name m hm other v hv
    rw [view?_of_queue_none (nothingEnqueued_twoMeetings name m hm)] at hv
    cases hv
  obtain ⟨m₂, w₂, hrun, hw₂, hopen₂, hclaimed₂, hsound, haccepted, honly, -⟩ :=
    run_enqueue_claim hstart.sound hstart.accepted hnone validate_secondRequest hsecond rfl
      loadSource_second fits_secondRequest hworker
      (fun _ _ _ other _ m hm => nothingEnqueued_twoMeetings other m hm) 1754000010 sampleMeetingId
  have hnames : (twoMeetings.put secondRequest.meetingId m₂).names =
      [sampleMeetingId.text, secondMeeting.meetingId] :=
    (names_put_of_mem m₂ (mem_names hsecond)).trans names_twoMeetings
  have hbefore : ∀ before after, (twoMeetings.put secondRequest.meetingId m₂).names =
      before ++ capturedRequest.meetingId :: after → ∀ other ∈ before, ∀ m,
        (twoMeetings.put secondRequest.meetingId m₂).entry other = some m → m.queue = none := by
    intro before after hsplit other hother
    rw [hnames] at hsplit
    cases before with
    | nil => cases hother
    | cons first rest =>
      obtain ⟨-, hrest⟩ := List.cons.inj hsplit
      cases rest with
      | nil => exact absurd (List.cons.inj hrest).1.symm hne
      | cons => simp at hrest
  have honly' : OnlyRequest (twoMeetings.put secondRequest.meetingId m₂) capturedRequest.requestId :=
    honly
  obtain ⟨m₁, w₁, hrun', hw₁, hopen₁, hclaimed₁, -⟩ :=
    run_enqueue_claim hsound haccepted honly' validate_capturedRequest (hfirst m₂) rfl
      loadSource_captured fits_capturedRequest hworker hbefore 1754000030 sampleMeetingId
  have hall : run QueueCall.states twoMeetings claimedTwice =
      (twoMeetings.put secondRequest.meetingId m₂).put capturedRequest.meetingId m₁ := by
    unfold claimedTwice
    rw [run_append, hrun, hrun']
  rw [hall]
  exact ⟨⟨m₁, w₁, entry_put_self _ _ _, hw₁, hopen₁, hclaimed₁⟩,
    m₂, w₂, (entry_put_of_ne m₁ hne.symm).trans (entry_put_self _ _ _), hw₂,
    hopen₂, hclaimed₂⟩

/-- `fail` succeeds on a request that was never claimed, and two requests with one
identifier are claimed at the same time. -/
theorem fail_without_claim :
    (NothingEnqueued capturedLibrary ∧ Loadable capturedLibrary ∧
      claimsOf (run QueueCall.states capturedLibrary [(.enqueue capturedRequest, 9)])
        capturedRequest.meetingId capturedRequest.requestId = none ∧
      ∃ item, ((QueueCall.fail capturedRequest.requestId .quarantined 1754000040).program.exec
        (run QueueCall.states capturedLibrary [(.enqueue capturedRequest, 9)])).result = .ok item) ∧
    NothingEnqueued twoMeetings ∧ Loadable twoMeetings ∧
      capturedRequest.meetingId ≠ secondRequest.meetingId ∧
      HoldsClaim (run QueueCall.states twoMeetings claimedTwice) capturedRequest.meetingId
        capturedRequest.requestId ∧
      HoldsClaim (run QueueCall.states twoMeetings claimedTwice) secondRequest.meetingId
        secondRequest.requestId := by
  refine ⟨⟨nothingEnqueued_captured, loadable_captured, ?_⟩, nothingEnqueued_twoMeetings,
    loadable_twoMeetings, by decide, holdsClaim_claimedTwice⟩
  have hm : capturedLibrary.entry capturedRequest.meetingId = some capturedDirectory :=
    Directory.entry_put_self _ _ _
  have hrun := cut_enqueue_of_new validate_capturedRequest hm loadSource_captured rfl 9
  rw [run_cons, run_nil]
  have hrecoverable := nothingEnqueued_captured.recoverable.cut undisturbed_enqueue
  rw [hrun] at hrecoverable ⊢
  have hentry := Directory.entry_put_self capturedLibrary capturedRequest.meetingId
    (((enqueueStates capturedDirectory capturedRequest).take 9).getLastD capturedDirectory)
  have hview : (((enqueueStates capturedDirectory capturedRequest).take 9).getLastD
      capturedDirectory).view? capturedRequest.requestId =
        some (ItemView.empty.link .request (toVecPretty capturedRequest)) :=
    MeetingDirectory.view?_of_item? (MeetingDirectory.item?_setItem_self
      capturedDirectory.withQueue capturedRequest.requestId _)
  refine ⟨?_, (hrecoverable.fails hentry hview ⟨rfl, rfl⟩ 1754000040).1⟩
  unfold claimsOf
  rw [hentry]
  rfl

end YawnApp.SessionCore
