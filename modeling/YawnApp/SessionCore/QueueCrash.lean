import YawnApp.SessionCore.QueueReadiness

set_option autoImplicit false

/-!
# The queue after a crash

A call of the queue can be stopped anywhere.  Unless it was stopped between
making a directory and linking the receipt in it, discovery answers afterwards,
every open request can be ended, and a commit that was stopped behind the record
is completed by a second one.
-/

namespace YawnApp.SessionCore

open YawnApp.Foundation TranscriptionQueue QueueCall Directory Meets

variable {B : Type} [Platform B]

/-! ## Ending a request -/

section Ending

variable {name : String} {m : MeetingDirectory B} {id : Uuid} {v : ItemView B}

/-- An open request of an accepted meeting is ended by `fail`. -/
theorem failIn_ends (hm : Accepted name m) (hv : m.view? id = some v) (hopen : v.IsOpen)
    (clock : UInt64) : Meets (failIn name id .quarantined clock) m (fun _ => True)
      (fun _ t => ∃ w, t.view? id = some w ∧ (w.receipts .terminal).isSome) (fun _ _ => False) := by
  obtain ⟨item, hshows, hready⟩ := hm.items id v hv
  have hisOpen := hshows.isOpen_view.mpr hopen
  obtain ⟨meeting, hready⟩ := hready hisOpen
  obtain ⟨hcommit, hterminal⟩ := isOpen_iff.mp hisOpen
  have hloadItem := loadItemOf_eq_ok.mpr ⟨v, hv, hshows⟩
  unfold failIn
  refine bind_inspect (fun found hfound => ?_) fun e he => by rw [hloadItem] at he; cases he
  rw [hloadItem, Except.ok.injEq] at hfound
  subst hfound
  have hload : loadMeetingOf name m = .ok meeting := mapError_eq_ok.mpr hready.record
  refine bind_inspect (fun found hfound => ?_) fun e he => by rw [hload] at he; cases he
  rw [hload, Except.ok.injEq] at hfound
  subst hfound
  refine bind_inspect (fun _ _ => ?_) fun e he => by rw [hready.source] at he; cases he
  refine bind_lift (fun _ _ => ?_) fun e he => ?_
  · refine bind_lift (fun _ _ => ?_) fun e he => ?_
    · rw [hterminal]
      have hlinked := hshows.link_terminal hisOpen ⟨.v1, id, .quarantined, clock⟩ fun _ => rfl
      refine (meets_receipt hv hshows.isPrivate (hshows.receipt_eq_none.2.1 hterminal)).mono
        (fun _ _ => trivial) (fun _ t ht => ?_) fun _ _ ht => absurd hlinked (ht.1 _)
      exact ⟨_, (congrFun ht.2.views id).trans (setView_self _ _ _), rfl⟩
    · rw [refuseIf_of_not fun h => h.2 rfl] at he
      cases he
  · rw [refuseIf_of_not (by simp [hcommit])] at he
    cases he

/-- A commit whose record was published is completed without touching the
record. -/
theorem commitIn_completes (hsound : m.Sound name) (hm : Accepted name m)
    (hv : m.view? id = some v) {item : TranscriptionQueueItem} (hshows : v.Shows id item)
    (hopen : item.isOpen = true) {result : TranscriptionResult} (hresult : item.result = some result)
    {meeting : MeetingRecord} (hload : loadMeeting m.reader name = .ok meeting)
    (hready : meeting.lifecycle = .transcriptReady)
    (hcurrent : meeting.artifacts.currentTranscript = some result.transcript) (clock : UInt64) :
    Meets (commitIn name id clock) m (fun t => t.record = m.record)
      (fun _ t => t.record = m.record ∧ ∃ w, t.view? id = some w ∧ (w.receipts .commit).isSome)
      (fun _ _ => False) := by
  obtain ⟨found, hfound, hsource⟩ := hm.items id v hv
  have hsame : item = found := hshows.unique hfound
  subst hsame
  obtain ⟨other, hsource⟩ := hsource hopen
  have hmeeting : meeting = other := Except.ok.inj (hload.symm.trans hsource.record)
  subst hmeeting
  obtain ⟨hcommit, hterminal⟩ := isOpen_iff.mp hopen
  obtain ⟨hname, hresults⟩ := (hsound id v hv).ofShows hshows
  have hloadItem := loadItemOf_eq_ok.mpr ⟨v, hv, hshows⟩
  obtain ⟨-, htranscript⟩ := hsource.transcript result (by rw [hresult]; rfl)
  unfold commitIn
  refine bind_inspect (fun found hfound => ?_) fun e he => by rw [hloadItem] at he; cases he
  rw [hloadItem, Except.ok.injEq] at hfound
  subst hfound
  refine bind_lift (fun found hfound => ?_) fun e he => by rw [hresult] at he; cases he
  rw [hresult, orRefuse_some, Except.ok.injEq] at hfound
  subst hfound
  have hloadOf : loadMeetingOf name m = .ok meeting := mapError_eq_ok.mpr hload
  refine bind_inspect (fun found hfound => ?_) fun e he => by rw [hloadOf] at he; cases he
  rw [hloadOf, Except.ok.injEq] at hfound
  subst hfound
  refine bind_inspect (fun _ _ => ?_) fun e he => by rw [hsource.source] at he; cases he
  refine bind_inspect (fun _ _ => ?_) fun e he => by
    rw [mapError_eq_ok.mpr htranscript] at he
    cases he
  rw [hcommit]
  refine bind_lift (fun _ _ => ?_) fun e he => by
    rw [refuseIf_of_not (by simp [hterminal])] at he
    cases he
  apply Meets.bind
  unfold publish
  rw [if_pos ⟨hready, hcurrent⟩]
  apply Meets.pure
  obtain ⟨bytes, hbytes⟩ := record_of_loadMeeting hload
  refine bind_inspect (fun found hfound => ?_) fun e he => by rw [hbytes] at he; cases he
  have hfits : Fits B (⟨.v1, id, item.request.meetingId, result.resultSha256,
      Platform.sha256 found, clock⟩ : TranscriptionCommit) :=
    TranscriptionCommit.fits (hname.1 ▸ hname.2) (hresults result hresult).2
      (Platform.validSha256_sha256 found)
  have hlinked := hshows.link_commit hopen (by rw [hresult]; rfl) hfits
  refine (meets_receipt hv hshows.isPrivate (hshows.receipt_eq_none.2.2 hcommit)).mono
    (fun t ht => ?_) (fun _ t ht => ?_) fun _ _ ht => absurd hlinked (ht.1 _)
  · rcases ht with ht | ht
    · exact ht.record
    · exact ht.record
  · exact ⟨ht.2.record, _, (congrFun ht.2.views id).trans (setView_self _ _ _), rfl⟩

end Ending

/-! ## Finding a request

The operations find a request by its identifier alone, in the first meeting
listed that has it. -/

section Located

variable {free : Uuid → Prop} {fresh : TranscriptionRequest → Prop} {oversized unfinished : Prop}
  {name : String} {library : Meetings B} {id : Uuid}

omit [Platform B] in
theorem locate_eq_ok : locate id library = .ok name ↔
    (∃ m v, library.entry name = some m ∧ m.view? id = some v) ∧
      ∃ before after, library.names = before ++ name :: after ∧
        ∀ other ∈ before, ∀ m, library.entry other = some m → m.view? id = none := by
  have hhas : ∀ other, ((library.entry other).bind fun m => m.item? id).isSome = true ↔
      ∃ m v, library.entry other = some m ∧ m.view? id = some v := by
    intro other
    simp only [MeetingDirectory.view?, Option.isSome_iff_exists, Option.bind_eq_some_iff,
      Option.map_eq_some_iff]
    constructor
    · rintro ⟨item, m, hm, hitem⟩
      exact ⟨m, _, hm, item, hitem, rfl⟩
    · rintro ⟨m, _, hm, item, hitem, -⟩
      exact ⟨item, m, hm, hitem⟩
  unfold locate
  rw [orRefuse_eq_ok, List.find?_eq_some_iff_append, hhas]
  refine and_congr_right fun _ => exists_congr fun before => exists_congr fun after =>
    and_congr_right fun _ => forall_congr' fun other => forall_congr' fun _ => ?_
  rw [Bool.not_eq_true', ← Bool.not_eq_true, hhas]
  constructor
  · intro hnone m hm
    by_contra hsome
    obtain ⟨v, hv⟩ := Option.ne_none_iff_exists'.mp hsome
    exact hnone ⟨m, v, hm, hv⟩
  · rintro hnone ⟨m, v, hm, hv⟩
    rw [hnone m hm] at hv
    cases hv

/-- Every open request is the one that is found. -/
def Located (library : Meetings B) : Prop :=
  ∀ name m id v, library.entry name = some m → m.view? id = some v → v.IsOpen →
    locate id library = .ok name

/-- The call makes a request of an identifier that another meeting has, and one
of the two is not found: this one, which is listed later, or that one, which is
open. -/
def QueueCall.Hides (library : Meetings B) : QueueCall B → Prop
  | .enqueue request => ∃ m other m' v, library.entry request.meetingId = some m ∧
      m.view? request.requestId = none ∧ other ≠ request.meetingId ∧
      library.entry other = some m' ∧ m'.view? request.requestId = some v ∧
      (v.IsOpen ∨ ∃ before after, library.names = before ++ request.meetingId :: after ∧
        other ∈ before)
  | _ => False

/-- An effect opens no request, or it makes a new one. -/
theorem QueueEffect.opens {m t : MeetingDirectory B}
    (h : QueueEffect free fresh oversized unfinished name m t) (hfinished : ¬ unfinished) :
    ((∀ id, (t.view? id).isSome = (m.view? id).isSome) ∧
      ∀ id w, t.view? id = some w → w.IsOpen → ∃ v, m.view? id = some v ∧ v.IsOpen) ∨
    ∃ request w, fresh request ∧ request.meetingId = name ∧ m.view? request.requestId = none ∧
      t.view? = setView m.view? request.requestId w := by
  have hset : ∀ {record : Option B} {other : Uuid} {v v' : ItemView B},
      m.view? other = some v → Becomes m t record (setView m.view? other v') →
      (v'.IsOpen → v.IsOpen) → (∀ id, (t.view? id).isSome = (m.view? id).isSome) ∧
        ∀ id w, t.view? id = some w → w.IsOpen → ∃ v, m.view? id = some v ∧ v.IsOpen := by
    intro record other v v' hv hbecomes hopen
    rw [hbecomes.views]
    refine ⟨fun id => ?_, fun id w hw his => ?_⟩
    · by_cases hother : id = other
      · rw [hother, setView_self, hv]
        rfl
      · rw [setView_of_ne v' hother]
    · by_cases hother : id = other
      · subst hother
        rw [setView_self, Option.some.injEq] at hw
        exact ⟨v, hv, hopen (hw ▸ his)⟩
      · rw [setView_of_ne v' hother] at hw
        exact ⟨w, hw, his⟩
  have hsame : t.view? = m.view? → (∀ id, (t.view? id).isSome = (m.view? id).isSome) ∧
      ∀ id w, t.view? id = some w → w.IsOpen → ∃ v, m.view? id = some v ∧ v.IsOpen := by
    intro hviews
    rw [hviews]
    exact ⟨fun _ => rfl, fun id w hw his => ⟨w, hw, his⟩⟩
  cases h with
  | quiet h => exact .inl (hsame h.views)
  | folder hcut | unfinished _ _ hcut => exact absurd hcut hfinished
  | request request _ _ hname hnew _ hfresh _ h =>
    exact .inr ⟨request, _, hfresh, hname, hnew, h.views⟩
  | claim _ _ _ _ hv _ _ _ _ _ _ _ h | release _ _ _ _ _ hv _ _ _ _ h =>
    exact .inl (hset hv h fun h => h)
  | result _ _ _ _ _ hv _ _ _ _ _ _ _ _ _ h => exact .inl (hset hv h ItemView.isOpen_of_link)
  | publish _ _ _ _ _ _ _ _ _ _ _ _ _ _ h => exact .inl (hsame h.views)
  | commit _ _ _ _ _ _ hv _ _ _ _ _ _ _ _ h | terminal _ _ _ _ hv _ _ _ h =>
    exact .inl (hset hv h ItemView.isOpen_of_link)

variable [DecidableEq B]

theorem Located.cut (h : Located library) (hsound : SoundLibrary library)
    {attempt : QueueCall B × Nat} (hfinished : ¬ QueueCall.StopsUnfinished library attempt)
    (hhides : ¬ attempt.1.Hides library) : Located (cut states library attempt) := by
  rcases cut_effect hsound attempt with heq | ⟨name, m, m', hm, heq, heffect⟩
  · rw [heq]
    exact h
  rw [heq]
  have hnames : (library.put name m').names = library.names :=
    names_put_of_mem m' (mem_names hm)
  rcases heffect.opens hfinished with ⟨hpresent, hopens⟩ | ⟨request, w, hfresh, hname, hnew, hviews⟩
  · -- The same requests are there, so each is found where it was.
    have hlocate : ∀ id other, locate id library = .ok other →
        locate id (library.put name m') = .ok other := by
      intro id other hfound
      rw [locate_eq_ok] at hfound ⊢
      obtain ⟨⟨m₁, v, hm₁, hv⟩, before, after, hsplit, hbefore⟩ := hfound
      refine ⟨?_, before, after, hnames.trans hsplit, fun earlier hearlier m₂ hm₂ => ?_⟩
      · by_cases hother : other = name
        · subst hother
          rw [hm, Option.some.injEq] at hm₁
          subst hm₁
          obtain ⟨w, hw⟩ := Option.isSome_iff_exists.mp ((hpresent id).trans (by rw [hv]; rfl))
          exact ⟨m', w, entry_put_self _ _ _, hw⟩
        · exact ⟨m₁, v, (entry_put_of_ne m' hother).trans hm₁, hv⟩
      · by_cases hname : earlier = name
        · subst hname
          rw [entry_put_self, Option.some.injEq] at hm₂
          subst hm₂
          have := hpresent id
          rw [hbefore earlier hearlier m hm] at this
          simpa using this
        · rw [entry_put_of_ne m' hname] at hm₂
          exact hbefore earlier hearlier m₂ hm₂
    intro other m₁ id w hm₁ hw his
    by_cases hother : other = name
    · subst hother
      rw [entry_put_self, Option.some.injEq] at hm₁
      subst hm₁
      obtain ⟨v, hv, hopen⟩ := hopens id w hw his
      exact hlocate id other (h other m id v hm hv hopen)
    · rw [entry_put_of_ne m' hother] at hm₁
      exact hlocate id other (h other m₁ id w hm₁ hw his)
  · -- A new request: no other meeting may have its identifier in front of it or open.
    subst hname
    obtain ⟨call, steps⟩ := attempt
    have hcall : call = .enqueue request := by
      cases call with
      | enqueue other => exact congrArg _ (hfresh : request = other).symm
      | claim | releaseClaim | admitResult | commit | fail => exact hfresh.elim
    subst hcall
    have hothers : ∀ other m₁ v, other ≠ request.meetingId → library.entry other = some m₁ →
        m₁.view? request.requestId = some v → ¬ v.IsOpen ∧ ∀ before after,
          library.names = before ++ request.meetingId :: after → other ∉ before := by
      intro other m₁ v hother hm₁ hv
      constructor
      · exact fun hopen => hhides ⟨m, other, m₁, v, hm, hnew, hother, hm₁, hv, .inl hopen⟩
      · exact fun before after hsplit hmem =>
          hhides ⟨m, other, m₁, v, hm, hnew, hother, hm₁, hv, .inr ⟨before, after, hsplit, hmem⟩⟩
    have hentries : ∀ other m₁ v id, (library.put request.meetingId m').entry other = some m₁ →
        m₁.view? id = some v → (other = request.meetingId ∧ id = request.requestId) ∨
          ∃ m₂, library.entry other = some m₂ ∧ m₂.view? id = some v := by
      intro other m₁ v id hm₁ hv
      by_cases hother : other = request.meetingId
      · subst hother
        rw [entry_put_self, Option.some.injEq] at hm₁
        subst hm₁
        by_cases hid : id = request.requestId
        · exact .inl ⟨rfl, hid⟩
        · rw [hviews, setView_of_ne w hid] at hv
          exact .inr ⟨m, hm, hv⟩
      · rw [entry_put_of_ne m' hother] at hm₁
        exact .inr ⟨m₁, hm₁, hv⟩
    intro other m₁ id v hm₁ hv his
    rw [locate_eq_ok]
    refine ⟨⟨m₁, v, hm₁, hv⟩, ?_⟩
    rw [hnames]
    rcases hentries other m₁ v id hm₁ hv with ⟨rfl, rfl⟩ | ⟨m₂, hm₂, hv₂⟩
    · obtain ⟨before, after, hsplit⟩ := List.append_of_mem (mem_names hm)
      refine ⟨before, after, hsplit, fun earlier hearlier m₃ hm₃ => ?_⟩
      by_contra hsome
      obtain ⟨u, hu⟩ := Option.ne_none_iff_exists'.mp hsome
      have hne : earlier ≠ request.meetingId := by
        rintro rfl
        have hnodup := library.nodup
        rw [hsplit, List.nodup_append] at hnodup
        exact hnodup.2.2 _ hearlier _ List.mem_cons_self rfl
      rcases hentries earlier m₃ u _ hm₃ hu with ⟨heq, -⟩ | ⟨m₄, hm₄, hu₄⟩
      · exact hne heq
      · exact (hothers earlier m₄ u hne hm₄ hu₄).2 before after hsplit hearlier
    · obtain ⟨-, before, after, hsplit, hbefore⟩ := locate_eq_ok.mp (h other m₂ id v hm₂ hv₂ his)
      refine ⟨before, after, hsplit, fun earlier hearlier m₃ hm₃ => ?_⟩
      by_contra hsome
      obtain ⟨u, hu⟩ := Option.ne_none_iff_exists'.mp hsome
      rcases hentries earlier m₃ u id hm₃ hu with ⟨rfl, rfl⟩ | ⟨m₄, hm₄, hu₄⟩
      · have hne : other ≠ request.meetingId := by
          rintro rfl
          rw [hm, Option.some.injEq] at hm₂
          subst hm₂
          rw [hnew] at hv₂
          cases hv₂
        exact (hothers other m₂ v hne hm₂ hv₂).1 his
      · rw [hbefore earlier hearlier m₄ hm₄] at hu₄
        cases hu₄

end Located

/-! ## Runs -/

section Runs

variable [DecidableEq B] {library : Meetings B} {name : String} {m : MeetingDirectory B} {id : Uuid}
  {v : ItemView B}

/-- What the ordinary operations need of the library. -/
structure Recoverable (library : Meetings B) : Prop where
  sound : SoundLibrary library
  accepted : Everywhere Accepted library
  located : Located library

/-- The call, stopped where it is, leaves no request that is not read or not
found. -/
def QueueCall.Undisturbed (library : Meetings B) (attempt : QueueCall B × Nat) : Prop :=
  ¬ attempt.1.Oversized library ∧ ¬ StopsUnfinished library attempt ∧ ¬ attempt.1.Hides library

omit [DecidableEq B] in
theorem NothingEnqueued.recoverable (h : NothingEnqueued library) : Recoverable library where
  sound := h.sound
  accepted name m hm :=
    ⟨by rw [MeetingDirectory.QueuePrivate, h name m hm]; exact nofun, fun id v hv => by
      rw [view?_of_queue_none (h name m hm)] at hv
      cases hv⟩
  located name m id v hm hv := by
    rw [view?_of_queue_none (h name m hm)] at hv
    cases hv

/-- The requests stay accepted, found or not. -/
theorem accepted_cut (hsound : SoundLibrary library) (h : Everywhere Accepted library)
    {attempt : QueueCall B × Nat} (hsmall : ¬ attempt.1.Oversized library)
    (hfinished : ¬ QueueCall.StopsUnfinished library attempt) :
    Everywhere Accepted (cut states library attempt) :=
  (cut_effect hsound attempt).everywhere (fun name m _ hm heffect haccepted =>
    heffect.accepted hsmall hfinished (hsound name m hm) haccepted) h

theorem Recoverable.cut (h : Recoverable library) {attempt : QueueCall B × Nat}
    (hundisturbed : QueueCall.Undisturbed library attempt) :
    Recoverable (cut states library attempt) where
  sound := h.sound.cut attempt
  accepted := accepted_cut h.sound h.accepted hundisturbed.1 hundisturbed.2.1
  located := h.located.cut h.sound hundisturbed.2.1 hundisturbed.2.2

theorem recoverable_run (h : NothingEnqueued library) (attempts : List (QueueCall B × Nat))
    (hallowed : Allowed states QueueCall.Undisturbed library attempts) :
    Recoverable (run states library attempts) :=
  run_invariant states (I := Recoverable) (fun _ _ hs hundisturbed => hs.cut hundisturbed)
    attempts library h.recoverable hallowed

omit [DecidableEq B] in
/-- A library whose requests are accepted is discovered. -/
theorem exists_discover_of_accepted (h : Everywhere Accepted library) :
    ∃ d, discover library = .ok d :=
  exists_discover.mpr fun name m _ hloads => ⟨(h name m hloads.entry).queuePrivate,
    fun _ _ hv => (h name m hloads.entry).listed hloads.record hv⟩

/-- `fail` ends an open request. -/
theorem Recoverable.fails (h : Recoverable library) (hm : library.entry name = some m)
    (hv : m.view? id = some v) (hopen : v.IsOpen) (clock : UInt64) :
    (∃ item, ((fail id .quarantined clock).program.exec library).result = .ok item) ∧
      ∃ bytes, HasReceipt (((fail id .quarantined clock).program.exec library).final library)
        name id .terminal bytes := by
  obtain ⟨item, hitem, w, hw, hterminal⟩ :=
    (failIn_ends (h.accepted name m hm) hv hopen clock).answers
  have hexec : (fail id .quarantined clock).program.exec library =
      (within name (failIn name id .quarantined clock)).exec library :=
    inLocated_of_located (h.located name m id v hm hv hopen) _
  rw [hexec, final_within hm, within_apply hm]
  obtain ⟨bytes, hbytes⟩ := Option.isSome_iff_exists.mp hterminal
  exact ⟨⟨item, hitem⟩, bytes, _, w, entry_put_self _ _ _, hw, hbytes⟩

/-- `commit` completes a request whose transcript was published, and the record
stays what it is in each of its steps. -/
theorem Recoverable.commits (h : Recoverable library) (hm : library.entry name = some m)
    (hv : m.view? id = some v) {item : TranscriptionQueueItem} (hshows : v.Shows id item)
    (hopen : item.isOpen = true) {result : TranscriptionResult} (hresult : item.result = some result)
    {meeting : MeetingRecord} (hload : loadMeeting m.reader name = .ok meeting)
    (hready : meeting.lifecycle = .transcriptReady)
    (hcurrent : meeting.artifacts.currentTranscript = some result.transcript) (clock : UInt64) :
    (∃ item, ((commit id clock).program.exec library).result = .ok item) ∧
      (∃ bytes, HasReceipt (((commit id clock).program.exec library).final library)
        name id .commit bytes) ∧
      ∀ t ∈ states (.commit id clock) library,
        (t.entry name).map MeetingDirectory.record = some m.record := by
  have hmeets := commitIn_completes (h.sound name m hm) (h.accepted name m hm) hv hshows hopen
    hresult hload hready hcurrent clock
  obtain ⟨answer, hanswer, -, w, hw, hcommit⟩ := hmeets.answers
  have hexec : (commit id clock).program.exec library =
      (within name (commitIn name id clock)).exec library :=
    inLocated_of_located (h.located name m id v hm hv (hshows.isOpen_view.mp hopen)) _
  unfold states
  rw [hexec, final_within hm, within_apply hm]
  obtain ⟨bytes, hbytes⟩ := Option.isSome_iff_exists.mp hcommit
  refine ⟨⟨answer, hanswer⟩, ⟨bytes, _, w, entry_put_self _ _ _, hw, hbytes⟩, fun t ht => ?_⟩
  obtain ⟨m', hm', rfl⟩ := List.mem_map.mp ht
  rw [entry_put_self, Option.map_some, hmeets.crash m' hm']

/-- In every run of undisturbed calls, stopped anywhere: discovery answers, each
open request is ended by `fail`, and a commit that was stopped behind the record
is completed by `commit`, which leaves the record alone. -/
theorem queueCrash_run (hempty : NothingEnqueued library) (attempts : List (QueueCall B × Nat))
    (hallowed : Allowed QueueCall.states QueueCall.Undisturbed library attempts) :
    (∃ d, discover (run QueueCall.states library attempts) = .ok d) ∧
    (∀ name m id v, (run QueueCall.states library attempts).entry name = some m →
      m.view? id = some v → v.IsOpen → ∀ clock,
      (∃ item, ((QueueCall.fail id .quarantined clock).program.exec
        (run QueueCall.states library attempts)).result = .ok item) ∧
      ∃ bytes, HasReceipt (((QueueCall.fail id .quarantined clock).program.exec
        (run QueueCall.states library attempts)).final (run QueueCall.states library attempts))
          name id .terminal bytes) ∧
    ∀ name m id v item result meeting, (run QueueCall.states library attempts).entry name = some m →
      m.view? id = some v → v.Shows id item → item.isOpen = true → item.result = some result →
      loadMeeting m.reader name = .ok meeting → meeting.lifecycle = .transcriptReady →
      meeting.artifacts.currentTranscript = some result.transcript → ∀ clock,
      (∃ item, ((QueueCall.commit id clock).program.exec
        (run QueueCall.states library attempts)).result = .ok item) ∧
      (∃ bytes, HasReceipt (((QueueCall.commit id clock).program.exec
        (run QueueCall.states library attempts)).final (run QueueCall.states library attempts))
          name id .commit bytes) ∧
      ∀ t ∈ QueueCall.states (.commit id clock) (run QueueCall.states library attempts),
        (t.entry name).map MeetingDirectory.record = some m.record := by
  have hrecoverable := recoverable_run hempty attempts hallowed
  exact ⟨exists_discover_of_accepted hrecoverable.accepted,
    fun _ _ _ _ hm hv hopen clock => hrecoverable.fails hm hv hopen clock,
    fun _ _ _ _ _ _ _ hm hv hshows hopen hresult hload hready hcurrent clock =>
      hrecoverable.commits hm hv hshows hopen hresult hload hready hcurrent clock⟩

end Runs

/-! ## A request without its receipt -/

theorem undisturbed_enqueue : QueueCall.Undisturbed capturedLibrary (.enqueue capturedRequest, 9) := by
  refine ⟨not_not.mpr fits_capturedRequest, ?_, ?_⟩
  · rintro ⟨-, m, hm, -, hstops⟩
    rw [(eq_of_entry_captured hm).2] at hstops
    exact absurd hstops (by decide)
  · rintro ⟨m, other, m', v, -, -, hother, hm', -⟩
    exact hother (eq_of_entry_captured hm').1

/-- A request that is enqueued in nine steps. -/
theorem queueCrash_run_enqueue : ∃ d, discover
    (run QueueCall.states capturedLibrary [(.enqueue capturedRequest, 9)]) = .ok d :=
  (queueCrash_run nothingEnqueued_captured [(.enqueue capturedRequest, 9)]
    ⟨undisturbed_enqueue, trivial⟩).1

/-- `enqueue` stopped when the directory of the request was just made: discovery
is refused. -/
theorem discover_refused_after_mkdir : NothingEnqueued capturedLibrary ∧
    ∀ d, discover (run QueueCall.states capturedLibrary [(.enqueue capturedRequest, 3)]) ≠ .ok d := by
  refine ⟨nothingEnqueued_captured, fun d hd => ?_⟩
  have hm : capturedLibrary.entry capturedRequest.meetingId = some capturedDirectory :=
    Directory.entry_put_self _ _ _
  have hcut := cut_enqueue_of_new validate_capturedRequest hm loadSource_captured rfl 3
  rw [run_cons, run_nil, hcut] at hd
  obtain ⟨-, hlisted⟩ := exists_discover.mp ⟨d, hd⟩ capturedRequest.meetingId
    (capturedDirectory.withQueue.setItem capturedRequest.requestId ItemDirectory.made) capturedMeeting
    ⟨Directory.entry_put_self _ _ _, loadMeeting_captured⟩
  obtain ⟨item, hitem⟩ := hlisted capturedRequest.requestId _
    (MeetingDirectory.view?_of_item? (MeetingDirectory.item?_setItem_self _ _ _))
  obtain ⟨v, hv, hshows⟩ := view?_of_listedItem hitem
  rw [MeetingDirectory.view?_of_item? (MeetingDirectory.item?_setItem_self _ _ _),
    Option.some.injEq] at hv
  subst hv
  cases hshows.isPrivate

end YawnApp.SessionCore
