/-
  SessionCore/RetentionRuns.lean --- what a deletion of audio takes away
  (`retention.rs`).

  A call stops after any of its steps, and the next one goes on from the receipt
  on the disk.  While the receipt says `Deleting`, each file that it lists is
  there, where it was or staged; and nothing that it does not list is touched.
-/
import YawnApp.SessionCore.InterruptedTranscription
import YawnApp.SessionCore.StorageFrames

set_option autoImplicit false

namespace YawnApp.SessionCore.Retention

open YawnApp.Foundation Volume Meets

variable {B : Type} [Platform B]

/-! ## Calls -/

structure DeletionCall where
  choices : Choices
  name : String
  meeting : MeetingRecord
  releaseRetainedAudio : Bool

/-- The states that a call of `reconcile_meeting_audio_deletion` passes. -/
def DeletionCall.states (call : DeletionCall) (m : MeetingDirectory B) :
    List (MeetingDirectory B) :=
  ((reconcileMeetingAudioDeletion call.choices call.name call.meeting
    call.releaseRetainedAudio).exec m).trace

/-! ## Places -/

/-- The receipt and its temporary files. -/
def Own (p : MeetingPath) : Prop := p = receiptPath ∨ ∃ nonce, p = receiptTemporary nonce

/-- Where a file of a receipt can be, live or staged. -/
def Place (relativeName : String) (p : MeetingPath) : Prop :=
  p = livePath relativeName ∨ stagedPath relativeName = .ok p

variable {name other : String} {p : MeetingPath} {old t u : ArtifactTree B}
  {receipt next : AudioDeletionReceipt} {a : DeletedArtifact}

theorem stagedPath_eq_ok : stagedPath name = .ok p ↔
    name ∈ audioArtifactPaths ∧ p = .entry ["deletion", fileName name ++ ".staged"] := by
  unfold stagedPath
  rw [check_bind_eq_ok, refuseIf_eq_ok, not_not]
  exact and_congr_right fun _ => ⟨fun h => (Except.ok.inj h).symm, fun h => congrArg _ h.symm⟩

/-- The places of the audio paths are apart, and none is that of the receipt. -/
theorem audio_places : ∀ name ∈ audioArtifactPaths,
    (livePath name ≠ receiptPath ∧
      MeetingPath.entry ["deletion", fileName name ++ ".staged"] ≠ receiptPath) ∧
    ∀ other ∈ audioArtifactPaths, (livePath name = livePath other → name = other) ∧
      (fileName name ++ ".staged" = fileName other ++ ".staged" → name = other) ∧
      livePath name ≠ .entry ["deletion", fileName other ++ ".staged"] := by
  decide

theorem not_own (hname : name ∈ audioArtifactPaths) (hp : Place name p) : ¬ Own p := by
  obtain ⟨⟨hlive, hstaged⟩, -⟩ := audio_places name hname
  rcases hp with rfl | hp
  · exact fun hown => hown.elim hlive nofun
  · rw [(stagedPath_eq_ok.mp hp).2]
    exact fun hown => hown.elim hstaged nofun

theorem live_ne_staged (hname : name ∈ audioArtifactPaths) (hp : stagedPath other = .ok p) :
    livePath name ≠ p := by
  obtain ⟨hother, rfl⟩ := stagedPath_eq_ok.mp hp
  exact ((audio_places name hname).2 other hother).2.2

/-- The places of two files are apart. -/
theorem places_apart {q : MeetingPath} (hname : name ∈ audioArtifactPaths)
    (hother : other ∈ audioArtifactPaths) (hne : name ≠ other) (hp : Place name p)
    (hq : Place other q) : p ≠ q := by
  rintro rfl
  obtain ⟨hlive, hstaged, -⟩ := (audio_places name hname).2 other hother
  rcases hp with rfl | hp <;> rcases hq with hq | hq
  · exact hne (hlive hq)
  · exact live_ne_staged hname hq rfl
  · exact live_ne_staged hother hp hq.symm
  · have heq := (stagedPath_eq_ok.mp hp).2.symm.trans (stagedPath_eq_ok.mp hq).2
    rw [MeetingPath.entry.injEq, List.cons.injEq, List.cons.injEq] at heq
    exact hne (hstaged heq.2.1)

/-! ## Inspecting -/

theorem inspectAudio_congr {q : MeetingPath} (h : u.node q = t.node p) :
    inspectAudio u q name = inspectAudio t p name := by
  unfold inspectAudio openPrivateFile
  rw [h]

/-- Away from what is touched a file is inspected as before. -/
theorem inspectAudio_frame {touched : MeetingPath → Prop} (h : Frame touched t u)
    (hp : ¬ touched p) : inspectAudio u p name = .ok a ↔ inspectAudio t p name = .ok a := by
  have hstep := h p hp
  unfold inspectAudio openPrivateFile
  generalize t.node p = before at hstep
  generalize u.node p = after at hstep
  cases hstep with
  | same => exact Iff.rfl
  | made | chmod => simp

/-! ## What a receipt accounts for -/

/-- What a deletion may touch. -/
def Touched (receipt : AudioDeletionReceipt) (p : MeetingPath) : Prop :=
  Own p ∨ ∃ a ∈ receipt.artifacts, Place a.relativeName p

/-- The receipt on the disk lists files that were there at the start, with their sizes and
digests; only they are touched, and while it says `Deleting` none of them is lost. -/
structure Listed (old t : ArtifactTree B) (receipt : AudioDeletionReceipt) : Prop where
  stored : t.node receiptPath = some (.file 0o600 (toVecPretty receipt))
  found : ∀ a ∈ receipt.artifacts, inspectAudio old (livePath a.relativeName) a.relativeName = .ok a
  held : receipt.state = .deleting → ∀ a ∈ receipt.artifacts, ∃ p, Place a.relativeName p ∧ ¬ Own p ∧
    inspectAudio t p a.relativeName = .ok a
  frame : Frame (Touched receipt) old t

/-- Nothing is deleted yet. -/
structure Clear (old t : ArtifactTree B) : Prop where
  free : t.node receiptPath = none
  frame : Frame Own old t

/-- Nothing is deleted yet, or the receipt accounts for it. -/
def Explained (old t : ArtifactTree B) : Prop := Clear old t ∨ ∃ receipt, Listed old t receipt

theorem Listed.explained (h : Listed old t receipt) : Explained old t := .inr ⟨receipt, h⟩

/-- What touches the receipt alone. -/
theorem Listed.framed (h : Listed old t receipt) (hframe : Frame Own t u)
    (hstored : u.node receiptPath = some (.file 0o600 (toVecPretty next)))
    (hartifacts : next.artifacts = receipt.artifacts)
    (hstate : next.state = .deleting → receipt.state = .deleting) : Listed old u next where
  stored := hstored
  found := hartifacts ▸ h.found
  held hdeleting a ha := by
    obtain ⟨p, hplace, hown, hin⟩ := h.held (hstate hdeleting) a (hartifacts ▸ ha)
    exact ⟨p, hplace, hown, (inspectAudio_frame hframe hown).mpr hin⟩
  frame := by
    intro p hp
    unfold Touched at hp
    rw [hartifacts] at hp
    exact (h.frame p hp).trans (hframe p fun hown => hp (.inl hown))

theorem Clear.not_own (h : Clear old t) (hin : inspectAudio t (livePath name) name = .ok a) :
    ¬ Own (livePath name) := by
  rintro (hp | ⟨nonce, hp⟩)
  · unfold inspectAudio openPrivateFile at hin
    rw [hp, h.free] at hin
    cases hin
  · cases hp

/-- The first receipt. -/
theorem Clear.listed (h : Clear old t)
    (hfound : ∀ a ∈ receipt.artifacts, inspectAudio t (livePath a.relativeName) a.relativeName = .ok a)
    (hframe : Frame Own t u)
    (hstored : u.node receiptPath = some (.file 0o600 (toVecPretty receipt))) :
    Listed old u receipt where
  stored := hstored
  found a ha := (inspectAudio_frame h.frame (h.not_own (hfound a ha))).mp (hfound a ha)
  held _ a ha := ⟨_, .inl rfl, h.not_own (hfound a ha),
    (inspectAudio_frame hframe (h.not_own (hfound a ha))).mpr (hfound a ha)⟩
  frame p hp := (h.frame.trans hframe) p fun hown => hp (.inl hown)

/-! ## Steps -/

omit [Platform B] in
theorem rename_nodes {source target : MeetingPath} (h : rename source target t = .ok u) :
    t.node source ≠ none ∧ u.node target = t.node source ∧
      (source ≠ target → u.node source = none) ∧
      ∀ q, q ≠ source → q ≠ target → u.node q = t.node q := by
  unfold rename at h
  split at h
  · rename_i n hn
    split at h
    · cases h
      refine ⟨by simp [hn], (node_place_self ..).trans hn.symm, fun hne => ?_, fun q hsource htarget => ?_⟩
      · rw [node_place_of_ne _ hne, node_clear, if_pos rfl]
      · rw [node_place_of_ne _ htarget, node_clear_of_ne hsource]
    · cases h
  · cases h

/-- The file of one listed artifact is staged. -/
theorem Listed.renamed (h : Listed old t receipt)
    (hnames : ∀ b ∈ receipt.artifacts, b.relativeName ∈ audioArtifactPaths) (ha : a ∈ receipt.artifacts)
    (hstaged : stagedPath a.relativeName = .ok p)
    (hin : inspectAudio t (livePath a.relativeName) a.relativeName = .ok a)
    (hu : rename (livePath a.relativeName) p t = .ok u) : Listed old u receipt := by
  have hname := hnames a ha
  have hplace : Place a.relativeName p := .inr hstaged
  obtain ⟨-, htarget, -, hoff⟩ := rename_nodes hu
  refine ⟨?_, h.found, fun hdeleting b hb => ?_,
    h.frame.trans (rename_frame (.inr ⟨a, ha, .inl rfl⟩) (.inr ⟨a, ha, hplace⟩) hu)⟩
  · rw [hoff _ (fun heq => not_own hname (.inl rfl) (.inl heq.symm))
      fun heq => not_own hname hplace (.inl heq.symm)]
    exact h.stored
  · by_cases hsame : b.relativeName = a.relativeName
    · have hb' := h.found b hb
      rw [hsame, h.found a ha, Except.ok.injEq] at hb'
      subst hb'
      exact ⟨p, hplace, not_own hname hplace, (inspectAudio_congr htarget).trans hin⟩
    · obtain ⟨q, hq, hown, hin⟩ := h.held hdeleting b hb
      have hne := fun {r} => places_apart (q := r) (hnames b hb) hname hsame hq
      exact ⟨q, hq, hown, (inspectAudio_congr (hoff q (hne (.inl rfl)) (hne hplace))).trans hin⟩

/-- The staged file of a listed artifact is removed, which the receipt has to allow. -/
theorem Listed.removed (h : Listed old t receipt) (hstate : receipt.state ≠ .deleting)
    (ha : a ∈ receipt.artifacts) (hstaged : stagedPath a.relativeName = .ok p)
    (hu : removeFile p t = .ok u) : Listed old u receipt := by
  have hown := not_own (stagedPath_eq_ok.mp hstaged).1 (.inr hstaged)
  refine ⟨?_, h.found, fun hdeleting => absurd hdeleting hstate,
    h.frame.trans (removeFile_frame (.inr ⟨a, ha, .inr hstaged⟩) hu)⟩
  rw [removeFile_off hu _ fun heq => hown (.inl heq.symm)]
  exact h.stored

/-- A program on the artifacts that keeps them explained. -/
abbrev Explains (old : ArtifactTree B) {α : Type} (program : Durable (ArtifactTree B) RetentionError α)
    (t : ArtifactTree B) (Q : α → ArtifactTree B → Prop) : Prop :=
  Meets program t (Explained old) Q fun _ => Explained old

theorem namedIn_receipt : NamedIn deletionDir receiptPath := ⟨rfl, by decide, by decide⟩

omit [Platform B] in
theorem own_meets {program : Durable (ArtifactTree B) IoError Unit}
    (h : Moves (Frame Own) program) :
    Meets program t (Frame Own t) (fun _ => Frame Own t) fun _ => Frame Own t :=
  h.meets Frame.refl fun _ h => h

theorem receiptPath_ne (nonce : Uuid) : receiptPath ≠ receiptTemporary nonce := nofun

theorem replaceReceipt_explains (h : Listed old t receipt) (nonce : Uuid)
    (next : AudioDeletionReceipt) (hartifacts : next.artifacts = receipt.artifacts)
    (hstate : next.state ≠ .deleting) :
    Explains old (replaceReceipt nonce next) t fun _ u => Listed old u next := by
  apply Meets.mapError
  have hsame : ∀ {u}, u.node receiptPath = t.node receiptPath → Frame Own t u → Listed old u receipt :=
    fun hu hframe => h.framed hframe (hu.trans h.stored) rfl id
  have hnew : ∀ {u}, u.node receiptPath = some (.file 0o600 (toVecPretty next)) → Frame Own t u →
      Listed old u next :=
    fun hu hframe => h.framed hframe hu hartifacts fun hdeleting => absurd hdeleting hstate
  refine ((durableReplace_target (toVecPretty next : B) namedIn_receipt (receiptPath_ne nonce) t).and
    (own_meets (durableReplace_moves _ (.inl rfl) (.inr ⟨nonce, rfl⟩)))).mono ?_
    (fun _ _ hu => hnew hu.1 hu.2) fun _ _ hu => (hsame hu.1 hu.2).explained
  rintro u ⟨hu | hu, hframe⟩
  · exact (hsame hu hframe).explained
  · exact (hnew hu hframe).explained

/-- The file of a location is the one that was inspected there, or it is gone. -/
def Located (receipt : AudioDeletionReceipt) (t : ArtifactTree B)
    (location : MeetingPath × MeetingPath × Bool) : Prop :=
  ∃ a ∈ receipt.artifacts, location.1 = livePath a.relativeName ∧
    stagedPath a.relativeName = .ok location.2.1 ∧ (location.2.2 = true →
      t.node location.1 = none ∨ inspectAudio t location.1 a.relativeName = .ok a)

theorem locateArtifact_eq_ok {location : MeetingPath × MeetingPath × Bool}
    (h : locateArtifact t a = .ok location) : location.1 = livePath a.relativeName ∧
      stagedPath a.relativeName = .ok location.2.1 ∧
      (location.2.2 = true → inspectAudio t location.1 a.relativeName = .ok a) := by
  unfold locateArtifact resolveArtifact requireAudio at h
  simp only [bind_eq_ok, refuseIf_eq_ok, ne_eq, not_not] at h
  obtain ⟨_, ⟨_, -, _, -, hlive⟩, staged, hstaged, present, -, _, -, _, -, _, ⟨_, hin, heq⟩, h⟩ := h
  cases hlive
  cases h
  refine ⟨rfl, hstaged, fun hpresent => ?_⟩
  rwa [if_pos hpresent, heq] at hin

theorem stageArtifacts_explains {locations : List (MeetingPath × MeetingPath × Bool)}
    (hnames : ∀ b ∈ receipt.artifacts, b.relativeName ∈ audioArtifactPaths) :
    ∀ {t : ArtifactTree B}, Listed old t receipt → (∀ location ∈ locations, Located receipt t location) →
      Explains old (stageArtifacts locations) t fun _ u => Listed old u receipt := by
  induction locations with
  | nil => exact fun h _ => Meets.pure h
  | cons location rest ih =>
    obtain ⟨live, staged, present⟩ := location
    intro t h hlocated
    have hrest := fun other hother => hlocated other (List.mem_cons_of_mem _ hother)
    cases present with
    | false => exact ih h hrest
    | true =>
      obtain ⟨a, ha, hlive, hstaged, hin⟩ := hlocated _ List.mem_cons_self
      dsimp only at hlive hstaged hin
      subst hlive
      refine Meets.bind (Meets.mapError (Meets.step (fun u hu => ?_) fun _ _ => h.explained))
      obtain ⟨hsource, -, hgone, hoff⟩ := rename_nodes hu
      have hname := hnames a ha
      have hplace : Place a.relativeName staged := .inr hstaged
      have hlisted := h.renamed hnames ha hstaged ((hin rfl).resolve_left hsource) hu
      refine ⟨hlisted.explained, ih hlisted fun other hother => ?_⟩
      obtain ⟨b, hb, hlive, hstaged', hin'⟩ := hrest other hother
      refine ⟨b, hb, hlive, hstaged', fun hpresent => ?_⟩
      by_cases hsame : b.relativeName = a.relativeName
      · rw [hlive, hsame]
        exact .inl (hgone (live_ne_staged hname hstaged))
      · have hne := fun {r} => places_apart (q := r) (hnames b hb) hname hsame (.inl hlive)
        have hnode := hoff _ (hne (.inl rfl)) (hne hplace)
        rw [hnode, inspectAudio_congr hnode]
        exact hin' hpresent

theorem removeArtifacts_explains (hstate : receipt.state ≠ .deleting) {places : List MeetingPath} :
    ∀ {t : ArtifactTree B}, Listed old t receipt →
      (∀ p ∈ places, ∃ a ∈ receipt.artifacts, stagedPath a.relativeName = .ok p) →
      Explains old (removeArtifacts places) t fun _ u => Listed old u receipt := by
  induction places with
  | nil => exact fun h _ => Meets.pure h
  | cons p rest ih =>
    intro t h hplaces
    refine Meets.bind (Meets.mapError (Meets.step (fun u hu => ?_) fun _ _ => h.explained))
    obtain ⟨a, ha, hstaged⟩ := hplaces p List.mem_cons_self
    have hremoved := h.removed hstate ha hstaged hu
    exact ⟨hremoved.explained, ih hremoved fun q hq => hplaces q (List.mem_cons_of_mem _ hq)⟩

theorem stageLive_explains (h : Listed old t receipt) (choices : Choices) :
    Explains old (stageLive choices receipt) t fun next u =>
      Listed old u next ∧ next.state ≠ .deleting := by
  unfold stageLive
  split
  · refine bind_inspect (fun locations hlocations => ?_) fun _ _ => h.explained
    have hlocated : ∀ location ∈ locations, Located receipt t location := by
      intro location hlocation
      obtain ⟨a, ha, hlocate⟩ := (mem_of_mapM_eq_ok hlocations location).mp hlocation
      obtain ⟨hlive, hstaged, hin⟩ := locateArtifact_eq_ok hlocate
      exact ⟨a, ha, hlive, hstaged, fun hpresent => .inr (hin hpresent)⟩
    have hnames : ∀ a ∈ receipt.artifacts, a.relativeName ∈ audioArtifactPaths := by
      intro a ha
      obtain ⟨location, hlocate⟩ := exists_mapM_eq_ok.mp ⟨_, hlocations⟩ a ha
      exact (stagedPath_eq_ok.mp (locateArtifact_eq_ok hlocate).2.1).1
    refine (stageArtifacts_explains hnames h hlocated).seq fun _ u hstaged => ?_
    exact (replaceReceipt_explains hstaged choices.staged { receipt with state := .staged } rfl
      (by simp)).seq fun _ v hv => Meets.pure ⟨hv, by simp⟩
  · rename_i hstate
    exact Meets.pure ⟨h, hstate⟩

theorem removeStaged_explains (h : Listed old t receipt) (hstate : receipt.state ≠ .deleting)
    (choices : Choices) : Explains old (removeStaged choices receipt) t fun _ => Explained old := by
  refine bind_inspect (fun places hplaces => ?_) fun _ _ => h.explained
  have hstaged : ∀ p ∈ places.filterMap id, ∃ a ∈ receipt.artifacts,
      stagedPath a.relativeName = .ok p := by
    intro p hp
    obtain ⟨_, hmem, rfl⟩ := List.mem_filterMap.mp hp
    obtain ⟨a, ha, hremove⟩ := (mem_of_mapM_eq_ok hplaces _).mp hmem
    unfold stagedToRemove at hremove
    simp only [bind_eq_ok] at hremove
    obtain ⟨_, -, _, -, _, -, staged, hstaged, present, -, hremove⟩ := hremove
    cases present with
    | false => cases hremove
    | true =>
      rw [if_pos rfl, check_bind_eq_ok] at hremove
      obtain ⟨-, hremove⟩ := hremove
      cases hremove
      exact ⟨a, ha, hstaged⟩
  refine (removeArtifacts_explains hstate h hstaged).seq fun _ u hremoved => ?_
  exact (replaceReceipt_explains hremoved choices.removed { receipt with state := .removed } rfl
    (by simp)).mono (fun _ h => h) (fun _ _ h => h.explained) fun _ _ h => h

/-! ## Calls -/

/-- A program on the meeting directory that keeps the artifacts explained. -/
abbrev Accounts (old : ArtifactTree B) {α : Type}
    (program : Durable (MeetingDirectory B) RetentionError α) (m : MeetingDirectory B) : Prop :=
  Meets program m (fun n => Explained old n.tree) (fun _ n => Explained old n.tree)
    fun _ n => Explained old n.tree

variable {m : MeetingDirectory B} {meeting : MeetingRecord} {choices : Choices}

/-- The record is no artifact. -/
theorem writeMeeting_tree (name : String) (meeting : MeetingRecord) (m : MeetingDirectory B) :
    Meets (writeMeeting name meeting) m (fun n => n.tree = m.tree) (fun _ n => n.tree = m.tree)
      fun _ n => n.tree = m.tree :=
  bind_lift (fun bytes _ => of_eq_ok (MeetingDirectory.replaceRecord_apply bytes m)
    (by simp) rfl) fun _ _ => rfl

theorem finishStagedRemoval_accounts (h : Listed old m.tree receipt) :
    Accounts old (finishStagedRemoval choices meeting receipt) m := by
  refine bind_lift (fun _ _ => ?_) fun _ _ => h.explained
  refine bind_inspect (fun _ _ => ?_) fun _ _ => h.explained
  split
  · exact Meets.inspect (fun _ _ => h.explained) fun _ _ => h.explained
  · refine Meets.bind (Meets.zoom rfl ((stageLive_explains h choices).seq fun next u hu => ?_))
    exact (removeStaged_explains hu.1 hu.2 choices).mono (fun _ h => h)
      (fun _ _ h => Meets.inspect (fun _ _ => h) fun _ _ => h) fun _ _ h => h

/-- The rest of a deletion whose receipt is on the disk. -/
theorem settle_accounts (h : Listed old m.tree receipt)
    (answer : MeetingRecord → MeetingRecord × MeetingRetentionResult) :
    Accounts old (do
      let settled ← finishStagedRemoval choices meeting receipt
      writeMeeting name settled
      pure (answer settled)) m := by
  refine (finishStagedRemoval_accounts h).seq fun settled n hn => ?_
  have hkeep : ∀ o : MeetingDirectory B, o.tree = n.tree → Explained old o.tree :=
    fun o ho => ho ▸ hn
  exact Meets.bind ((writeMeeting_tree name settled n).mono hkeep
    (fun _ o ho => Meets.pure (hkeep o ho)) fun _ => hkeep)

/-- The files of a new receipt were inspected. -/
theorem newReceipt_found (h : newReceipt t meeting = .ok receipt) : ∀ a ∈ receipt.artifacts,
    inspectAudio t (livePath a.relativeName) a.relativeName = .ok a := by
  unfold newReceipt at h
  simp only [bind_eq_ok] at h
  obtain ⟨_, -, artifacts, hartifacts, _, -, h⟩ := h
  cases h
  intro a ha
  rw [List.mem_insertionSort] at ha
  obtain ⟨reference, -, hreference⟩ := (mem_of_mapM_eq_ok hartifacts a).mp ha
  unfold inspectReference resolveArtifact at hreference
  simp only [bind_eq_ok] at hreference
  obtain ⟨_, ⟨_, -, _, -, hlive⟩, inspected, hin, _, -, heq⟩ := hreference
  cases hlive
  cases heq
  have hname : a.relativeName = reference.relativePath := by
    unfold inspectAudio at hin
    rw [bind_eq_ok] at hin
    obtain ⟨_, -, hin⟩ := hin
    cases hin
    rfl
  rwa [hname]

/-- The receipt is there before anything else is touched. -/
theorem createReceipt_explains (h : Clear old t) (nonce : Uuid)
    (hfound : ∀ a ∈ receipt.artifacts,
      inspectAudio t (livePath a.relativeName) a.relativeName = .ok a) :
    Explains old (do
      Durable.mapError .io (createPrivateDir deletionDir)
      Durable.mapError .io
        (durableCreateNew receiptPath (receiptTemporary nonce) (toVecPretty receipt))) t
      fun _ u => Listed old u receipt := by
  have hclear : ∀ {v w : ArtifactTree B}, Clear old v → w.node receiptPath = v.node receiptPath →
      Frame Own v w → Clear old w :=
    fun hv hw hframe => ⟨hw.trans hv.free, hv.frame.trans hframe⟩
  have hmade := ((createPrivateDir_off (B := B) deletionDir).meets (s := t) (fun _ _ _ _ => rfl)
    fun _ h => h).and (own_meets (createPrivateDir_moves deletionDir))
  have hoff : ∀ {u : ArtifactTree B}, (∀ q, q ∉ Location.ancestors deletionDir → q ≠ deletionDir →
      u.node q = t.node q) → u.node receiptPath = t.node receiptPath :=
    fun hu => hu _ namedIn_receipt.notAbove namedIn_receipt.ne
  refine Meets.bind (Meets.mapError (hmade.mono (fun _ hu => .inl (hclear h (hoff hu.1) hu.2))
    (fun _ u hu => ?_) fun _ _ hu => .inl (hclear h (hoff hu.1) hu.2)))
  have hu' := hclear h (hoff hu.1) hu.2
  have hlisted : ∀ {v}, v.node receiptPath = some (.file 0o600 (toVecPretty receipt)) →
      Frame Own u v → Listed old v receipt :=
    fun hv hframe => h.listed hfound (hu.2.trans hframe) hv
  refine Meets.mapError (((durableCreateNew_target (toVecPretty receipt : B) namedIn_receipt
    (receiptPath_ne nonce) u).and
    (own_meets (durableCreateNew_moves _ (.inl rfl) (.inr ⟨nonce, rfl⟩)))).mono ?_
    (fun _ _ hv => hlisted hv.1.2 hv.2) fun _ _ hv => .inl (hclear hu' hv.1 hv.2))
  rintro v ⟨hv | hv, hframe⟩
  · exact .inl (hclear hu' hv hframe)
  · exact (hlisted hv.2 hframe).explained

theorem beginDeletion_accounts (h : Clear old m.tree) :
    Accounts old (beginDeletion choices name meeting) m := by
  refine bind_inspect (fun receipt hreceipt => ?_) fun _ _ => .inl h
  refine Meets.bind (Meets.zoom rfl ((createReceipt_explains h choices.created
    (newReceipt_found hreceipt)).mono (fun _ h => h) (fun _ u hu => ?_) fun _ _ h => h))
  refine Meets.bind ((writeMeeting_tree name (deletingRecord meeting) _).mono
    (fun _ hn => hn ▸ hu.explained) (fun _ n hn => ?_) fun _ _ hn => hn ▸ hu.explained)
  have hlisted : Listed old n.tree receipt := hn ▸ hu
  exact settle_accounts hlisted _

theorem resumeDeletion_accounts (h : Listed old m.tree receipt) :
    Accounts old (resumeDeletion choices name meeting) m := by
  refine bind_inspect (fun loaded hloaded => ?_) fun _ _ => h.explained
  have hloaded : receipt = loaded := by
    unfold loadReceipt readPrivateBytes openPrivateFile at hloaded
    rw [h.stored] at hloaded
    simp only [bind_eq_ok, mapError_eq_ok] at hloaded
    obtain ⟨_, ⟨_, ⟨_, -, hbytes⟩, _, -, hread⟩, hloaded⟩ := hloaded
    cases hbytes
    cases hread
    rw [fromSlice_toVecPretty] at hloaded
    exact Except.ok.inj hloaded
  subst hloaded
  refine bind_lift (fun _ _ => ?_) fun _ _ => h.explained
  exact bind_inspect (fun _ _ => settle_accounts h _) fun _ _ => h.explained

theorem reconcile_accounts (h : Explained old m.tree) (release : Bool) :
    Accounts old (reconcileMeetingAudioDeletion choices name meeting release) m := by
  refine bind_inspect (fun _ _ => ?_) fun _ _ => h
  refine bind_inspect (fun present hpresent => ?_) fun _ _ => h
  unfold deletionReceiptPresent pathPresent at hpresent
  rcases h with h | ⟨receipt, h⟩
  · rw [h.free] at hpresent
    have hpresent : present = false := by
      dsimp only at hpresent
      split at hpresent <;> cases hpresent
      rfl
    subst hpresent
    refine bind_lift (fun _ _ => ?_) fun _ _ => .inl h
    refine bind_inspect (fun _ _ => ?_) fun _ _ => .inl h
    split
    · exact Meets.pure (.inl h)
    · exact beginDeletion_accounts h
  · rw [h.stored] at hpresent
    cases hpresent
    exact resumeDeletion_accounts h

end YawnApp.SessionCore.Retention
