import YawnApp.SessionCore.QueueOperations

set_option autoImplicit false

/-!
# What discovery finds

`discover` goes through every meeting and every request and stops at the first
that it refuses.  It answers if no meeting that loads has a request it refuses,
and then its items are the requests of these meetings.
-/

namespace YawnApp.SessionCore

open YawnApp.Foundation TranscriptionQueue

variable {B : Type} [Platform B]

/-! ## One meeting -/

section Meeting

variable {m : MeetingDirectory B} {meeting : MeetingRecord} {id : Uuid}

/-- A request is listed if it is read and, while it is open, its source and its
transcript are as they were. -/
theorem listedItem_eq_ok {item : TranscriptionQueueItem} :
    listedItem m meeting id = .ok item ↔ loadItemOf id m = .ok item ∧
      (item.isOpen = true → verifySource m.reader meeting item.request = .ok () ∧
        ∀ result ∈ item.result, verifyArtifactRef m.reader result.transcript = .ok ()) := by
  have hchecks : ∀ o : Option TranscriptionResult, (checkSome o fun result =>
      (verifyArtifactRef m.reader result.transcript).mapError TranscriptionQueueError.meeting) =
        .ok () ↔ ∀ result ∈ o, verifyArtifactRef m.reader result.transcript = .ok () := by
    intro o
    cases o with
    | none | some => simp
  unfold listedItem
  rw [bind_eq_ok]
  constructor
  · rintro ⟨found, hload, hrest⟩
    split at hrest
    · rw [check_bind_eq_ok, check_bind_eq_ok, hchecks] at hrest
      obtain ⟨hsource, htranscript, hsame⟩ := hrest
      cases hsame
      exact ⟨hload, fun _ => ⟨hsource, htranscript⟩⟩
    · rename_i hclosed
      cases hrest
      exact ⟨hload, fun hopen => absurd hopen hclosed⟩
  · rintro ⟨hload, hopen⟩
    refine ⟨item, hload, ?_⟩
    split
    · rename_i his
      rw [check_bind_eq_ok, check_bind_eq_ok, hchecks]
      exact ⟨(hopen his).1, (hopen his).2, rfl⟩
    · rfl

/-- What is listed is there. -/
theorem view?_of_listedItem {item : TranscriptionQueueItem} (h : listedItem m meeting id = .ok item) :
    ∃ v, m.view? id = some v ∧ v.Shows id item :=
  loadItemOf_eq_ok.mp (listedItem_eq_ok.mp h).1

omit [Platform B] in
theorem mem_names_of_view? {queue : Directory Uuid (ItemDirectory B)}
    (hqueue : m.queue = some queue) : id ∈ queue.names ↔ ∃ v, m.view? id = some v := by
  unfold MeetingDirectory.view? MeetingDirectory.item?
  rw [hqueue, Option.bind_some]
  constructor
  · intro h
    obtain ⟨item, hitem⟩ := Directory.entry_of_mem h
    exact ⟨item.view, by rw [hitem]; rfl⟩
  · rintro ⟨v, hv⟩
    obtain ⟨item, hitem, -⟩ := Option.map_eq_some_iff.mp hv
    exact Directory.mem_names hitem

/-- A queue folder is listed if it is private and each of its requests is listed. -/
theorem exists_listedMeetingItems : (∃ scanned, listedMeetingItems m meeting = .ok scanned) ↔
    m.QueuePrivate ∧ ∀ id v, m.view? id = some v → ∃ item, listedItem m meeting id = .ok item := by
  unfold listedMeetingItems MeetingDirectory.QueuePrivate
  cases hqueue : m.queue with
  | none =>
    refine ⟨fun _ => ⟨nofun, fun id v hv => ?_⟩, fun _ => ⟨none, rfl⟩⟩
    unfold MeetingDirectory.view? MeetingDirectory.item? at hv
    rw [hqueue] at hv
    cases hv
  | some =>
    simp only [check_bind_eq_ok, refuseIf_eq_ok, Bool.not_eq_false, map_eq_ok, Option.mem_some_iff,
      forall_eq']
    constructor
    · rintro ⟨_, hprivate, items, hitems, -⟩
      refine ⟨hprivate, fun id v hv => exists_mapM_eq_ok.mp ⟨items, hitems⟩ id ?_⟩
      rw [List.mem_insertionSort]
      exact (mem_names_of_view? hqueue).mpr ⟨v, hv⟩
    · rintro ⟨hprivate, hall⟩
      obtain ⟨items, hitems⟩ := (exists_mapM_eq_ok (f := listedItem m meeting)).mpr fun id hid => by
        rw [List.mem_insertionSort, mem_names_of_view? hqueue] at hid
        obtain ⟨v, hv⟩ := hid
        exact hall id v hv
      exact ⟨some items, hprivate, items, hitems, rfl⟩

/-- The items of a listed queue folder are its requests; without a folder there
is no list. -/
theorem mem_listedMeetingItems {scanned : Option (List TranscriptionQueueItem)}
    (h : listedMeetingItems m meeting = .ok scanned) : (scanned = none ↔ m.queue = none) ∧
      ∀ item, (∃ items ∈ scanned, item ∈ items) ↔ ∃ id, listedItem m meeting id = .ok item := by
  unfold listedMeetingItems at h
  cases hqueue : m.queue with
  | none =>
    rw [hqueue] at h
    cases h
    refine ⟨by simp, fun item => ⟨fun ⟨_, hitems, _⟩ => (by cases hitems), fun ⟨id, hid⟩ => ?_⟩⟩
    obtain ⟨v, hv, -⟩ := view?_of_listedItem hid
    unfold MeetingDirectory.view? MeetingDirectory.item? at hv
    rw [hqueue] at hv
    cases hv
  | some =>
    rw [hqueue] at h
    simp only [check_bind_eq_ok, map_eq_ok] at h
    obtain ⟨-, items, hitems, rfl⟩ := h
    refine ⟨by simp, fun item => ?_⟩
    simp only [Option.mem_some_iff, exists_eq_left', mem_of_mapM_eq_ok hitems item,
      List.mem_insertionSort, mem_names_of_view? hqueue]
    constructor
    · rintro ⟨id, -, hid⟩
      exact ⟨id, hid⟩
    · rintro ⟨id, hid⟩
      obtain ⟨v, hv, -⟩ := view?_of_listedItem hid
      exact ⟨id, ⟨v, hv⟩, hid⟩

end Meeting

/-! ## The library -/

section Library

variable {library : Meetings B} {name : String}

/-- A meeting of the library with its record. -/
structure Loads (library : Meetings B) (name : String) (m : MeetingDirectory B)
    (meeting : MeetingRecord) : Prop where
  entry : library.entry name = some m
  record : loadMeeting m.reader name = .ok meeting

theorem Loads.unique {m m' : MeetingDirectory B} {meeting meeting' : MeetingRecord}
    (h : Loads library name m meeting) (h' : Loads library name m' meeting') :
    m = m' ∧ meeting = meeting' := by
  have hm : m = m' := Option.some.inj (h.entry.symm.trans h'.entry)
  subst hm
  exact ⟨rfl, Except.ok.inj (h.record.symm.trans h'.record)⟩

/-- An item that is listed in the meeting `name`. -/
def Lists (library : Meetings B) (name : String) (item : TranscriptionQueueItem) : Prop :=
  ∃ m meeting id, Loads library name m meeting ∧ listedItem m meeting id = .ok item

/-- A captured meeting that has no queue folder. -/
def Orphan (library : Meetings B) (name : String) : Prop :=
  ∃ m meeting, Loads library name m meeting ∧ m.queue = none ∧ meeting.lifecycle = .captured

theorem addListedMeeting_eq_ok {m : MeetingDirectory B} {meeting : MeetingRecord}
    (h : Loads library name m meeting) {discovery found : QueueDiscovery}
    {scanned : Except TranscriptionQueueError (Option (List TranscriptionQueueItem))} :
    addListedMeeting discovery name m meeting scanned = .ok found ↔ ∃ items, scanned = .ok items ∧
      found = ⟨discovery.items ++ items.getD [], discovery.orphanCapturedMeetings ++
        if items = none ∧ meeting.lifecycle = .captured then [name] else []⟩ := by
  obtain ⟨bytes, hbytes⟩ := record_of_loadMeeting h.record
  unfold addListedMeeting
  rw [if_neg (by simp [hbytes]), bind_eq_ok]
  refine exists_congr fun items => and_congr_right fun _ => ?_
  cases items with
  | none =>
    simp only [pure, Except.pure, Except.ok.injEq, Option.getD_none, List.append_nil, true_and]
    rw [eq_comm]
    split <;> simp
  | some => simp [pure, Except.pure, eq_comm]

/-- What one more name adds to a discovery. -/
theorem discoverNames_cons {rest : List String} {discovery out : QueueDiscovery}
    (h : discoverNames library (name :: rest) discovery = .ok out) :
    ∃ found, discoverNames library rest found = .ok out ∧
      (∀ item, item ∈ found.items ↔ item ∈ discovery.items ∨ Lists library name item) ∧
      ∀ other, other ∈ found.orphanCapturedMeetings ↔
        other ∈ discovery.orphanCapturedMeetings ∨ other = name ∧ Orphan library name := by
  rw [discoverNames] at h
  have hnothing : (∀ m meeting, ¬ Loads library name m meeting) →
      discoverNames library rest discovery = .ok out → ∃ found,
        discoverNames library rest found = .ok out ∧
        (∀ item, item ∈ found.items ↔ item ∈ discovery.items ∨ Lists library name item) ∧
        ∀ other, other ∈ found.orphanCapturedMeetings ↔
          other ∈ discovery.orphanCapturedMeetings ∨ other = name ∧ Orphan library name := by
    intro hnone hrest
    refine ⟨discovery, hrest, fun item => (or_iff_left ?_).symm, fun other => (or_iff_left ?_).symm⟩
    · rintro ⟨m, meeting, _, hloads, -⟩
      exact hnone m meeting hloads
    · rintro ⟨-, m, meeting, hloads, -⟩
      exact hnone m meeting hloads
  cases hentry : library.entry name with
  | none =>
    rw [hentry] at h
    refine hnothing (fun m meeting hloads => ?_) h
    rw [hloads.entry] at hentry
    cases hentry
  | some m =>
    simp only [hentry] at h
    cases hload : loadMeeting m.reader name with
    | error =>
      simp only [hload] at h
      refine hnothing (fun m' meeting hloads => ?_) h
      have hm : m' = m := Option.some.inj (hloads.entry.symm.trans hentry)
      rw [← hm, hloads.record] at hload
      cases hload
    | ok meeting =>
      simp only [hload] at h
      have hloads : Loads library name m meeting := ⟨hentry, hload⟩
      obtain ⟨found, hadd, hrest⟩ := bind_eq_ok.mp h
      obtain ⟨items, hitems, rfl⟩ := (addListedMeeting_eq_ok hloads).mp hadd
      obtain ⟨hnone, hmem⟩ := mem_listedMeetingItems hitems
      refine ⟨_, hrest, fun item => ?_, fun other => ?_⟩
      · have hlists : Lists library name item ↔ ∃ id, listedItem m meeting id = .ok item := by
          constructor
          · rintro ⟨m', meeting', id, hloads', hid⟩
            obtain ⟨rfl, rfl⟩ := hloads.unique hloads'
            exact ⟨id, hid⟩
          · rintro ⟨id, hid⟩
            exact ⟨m, meeting, id, hloads, hid⟩
        rw [List.mem_append, hlists, ← hmem item]
        cases items with
        | none | some => simp
      · have horphan : Orphan library name ↔ items = none ∧ meeting.lifecycle = .captured := by
          rw [hnone]
          constructor
          · rintro ⟨m', meeting', hloads', hqueue⟩
            obtain ⟨rfl, rfl⟩ := hloads.unique hloads'
            exact hqueue
          · exact fun hqueue => ⟨m, meeting, hloads, hqueue⟩
        rw [List.mem_append, horphan]
        split
        · rename_i hadded
          simp [hadded]
        · rename_i hskipped
          simp [hskipped]

theorem mem_discoverNames : ∀ {names : List String} {discovery out : QueueDiscovery},
    discoverNames library names discovery = .ok out →
      (∀ item, item ∈ out.items ↔ item ∈ discovery.items ∨ ∃ name ∈ names, Lists library name item) ∧
      ∀ name, name ∈ out.orphanCapturedMeetings ↔
        name ∈ discovery.orphanCapturedMeetings ∨ name ∈ names ∧ Orphan library name := by
  intro names
  induction names with
  | nil =>
    intro discovery out h
    cases h
    simp
  | cons first rest ih =>
    intro discovery out h
    obtain ⟨found, hrest, hitems, horphans⟩ := discoverNames_cons h
    obtain ⟨hitems', horphans'⟩ := ih hrest
    refine ⟨fun item => ?_, fun name => ?_⟩
    · rw [hitems', hitems]
      simp only [List.mem_cons, exists_eq_or_imp, or_assoc]
    · rw [horphans', horphans, List.mem_cons, or_assoc]
      refine or_congr_right ⟨?_, ?_⟩
      · rintro (⟨rfl, horphan⟩ | ⟨hname, horphan⟩)
        · exact ⟨.inl rfl, horphan⟩
        · exact ⟨.inr hname, horphan⟩
      · rintro ⟨rfl | hname, horphan⟩
        · exact .inl ⟨rfl, horphan⟩
        · exact .inr ⟨hname, horphan⟩

/-- The discovery of some names answers if each of them that loads is listed. -/
theorem exists_discoverNames : ∀ {names : List String} {discovery : QueueDiscovery},
    (∃ out, discoverNames library names discovery = .ok out) ↔
      ∀ name ∈ names, ∀ m meeting, Loads library name m meeting →
        ∃ scanned, listedMeetingItems m meeting = .ok scanned := by
  intro names
  induction names with
  | nil => exact fun {discovery} => ⟨fun _ _ hname => (by cases hname), fun _ => ⟨discovery, rfl⟩⟩
  | cons first rest ih =>
    intro discovery
    rw [discoverNames, List.forall_mem_cons]
    cases hentry : library.entry first with
    | none =>
      rw [ih]
      refine (and_iff_right fun m meeting hloads => ?_).symm
      rw [hloads.entry] at hentry
      cases hentry
    | some m =>
      simp only
      cases hload : loadMeeting m.reader first with
      | error =>
        simp only
        rw [ih]
        refine (and_iff_right fun m' meeting hloads => ?_).symm
        have hm : m' = m := Option.some.inj (hloads.entry.symm.trans hentry)
        rw [← hm, hloads.record] at hload
        cases hload
      | ok meeting =>
        have hloads : Loads library first m meeting := ⟨hentry, hload⟩
        simp only [bind_eq_ok, addListedMeeting_eq_ok hloads]
        constructor
        · rintro ⟨out, found, ⟨items, hitems, rfl⟩, hrest⟩
          refine ⟨fun m' meeting' hloads' => ?_, ih.mp ⟨out, hrest⟩⟩
          obtain ⟨rfl, rfl⟩ := hloads.unique hloads'
          exact ⟨items, hitems⟩
        · rintro ⟨hfirst, hrest⟩
          obtain ⟨items, hitems⟩ := hfirst m meeting hloads
          obtain ⟨out, hout⟩ := ih.mpr hrest
          exact ⟨out, _, ⟨items, hitems, rfl⟩, hout⟩

/-- Discovery answers exactly when no meeting that loads has anything that it
refuses. -/
theorem exists_discover : (∃ d, discover library = .ok d) ↔
    ∀ name m meeting, Loads library name m meeting → m.QueuePrivate ∧
      ∀ id v, m.view? id = some v → ∃ item, listedItem m meeting id = .ok item := by
  unfold discover
  rw [exists_discoverNames]
  simp only [List.mem_insertionSort, exists_listedMeetingItems]
  exact ⟨fun h name m meeting hloads => h name (Directory.mem_names hloads.entry) m meeting hloads,
    fun h name _ => h name⟩

/-- The items found are those listed in some meeting. -/
theorem mem_items_discover {d : QueueDiscovery} (h : discover library = .ok d)
    {item : TranscriptionQueueItem} : item ∈ d.items ↔ ∃ name, Lists library name item := by
  unfold discover at h
  rw [(mem_discoverNames h).1 item]
  simp only [List.not_mem_nil, false_or, List.mem_insertionSort]
  constructor
  · rintro ⟨name, -, hlists⟩
    exact ⟨name, hlists⟩
  · rintro ⟨name, m, meeting, id, hloads, hid⟩
    exact ⟨name, Directory.mem_names hloads.entry, m, meeting, id, hloads, hid⟩

end Library

end YawnApp.SessionCore
