import YawnApp.SessionCore.RestorationClosure
import YawnApp.SessionCore.RetryRuns

set_option autoImplicit false

/-!
# New candidates and restorations

`create_candidate` stores a transcript and a receipt, and a restoration moves the
pointer of the meeting under a candidate that waits.  Both keep the invariant of
the retries: no candidate is stored while another is undecided, and what the
meeting points to is there.
-/

namespace YawnApp.SessionCore

open YawnApp.Foundation TranscriptRestorationCoordinator Meets Durable

namespace TranscriptRetry

/-! ## The search for a pending candidate -/

section Discovery

variable {B : Type} [Platform B] {name : String} {meeting : MeetingRecord} {m : MeetingDirectory B}

/-- A candidate that was found stays the answer. -/
theorem discoverEntries_of_found {found : TranscriptRetryCandidate} (names : List String) :
    ∀ {index : Nat} {result : Option TranscriptRetryCandidate},
      discoverEntries name meeting m names index (some found) = .ok result → result = some found := by
  induction names with
  | nil =>
    intro index result h
    cases h
    rfl
  | cons entry rest ih =>
    intro index result h
    unfold discoverEntries at h
    simp only [bind_eq_ok] at h
    obtain ⟨_, -, id, -, candidate, -, _, -, h⟩ := h
    split at h
    · simp only [bind_eq_ok, refuseIf_eq_ok] at h
      obtain ⟨_, -, _, hnone, -⟩ := h
      exact absurd rfl hnone
    · simp only [bind_eq_ok] at h
      obtain ⟨_, -, h⟩ := h
      exact ih h

/-- A pending candidate whose directory is among the names is the answer. -/
theorem discoverEntries_pending {id : Uuid} {candidate : TranscriptRetryCandidate}
    (hload : loadReceipt m.tree id = .ok candidate)
    (hpending : candidate.state = .candidateAvailableForComparison) (names : List String)
    (hid : id.text ∈ names) : ∀ {index : Nat} {pending result : Option TranscriptRetryCandidate},
      discoverEntries name meeting m names index pending = .ok result → result = some candidate := by
  induction names with
  | nil => cases hid
  | cons entry rest ih =>
    intro index pending result h
    unfold discoverEntries at h
    simp only [bind_eq_ok, orRefuse_eq_ok] at h
    obtain ⟨_, -, found, hfound, other, hother, _, -, h⟩ := h
    rcases List.mem_cons.mp hid with heq | hrest
    · -- the entry is the directory of the candidate
      have hsame : found = id := by
        split at hfound
        · cases hfound
          exact Uuid.ext heq.symm
        · cases hfound
      rw [hsame, hload, Except.ok.injEq] at hother
      rw [← hother, if_pos hpending] at h
      simp only [bind_eq_ok] at h
      obtain ⟨_, -, _, -, h⟩ := h
      exact discoverEntries_of_found rest h
    · split at h
      · simp only [bind_eq_ok] at h
        obtain ⟨_, -, _, -, h⟩ := h
        exact ih hrest h
      · simp only [bind_eq_ok] at h
        obtain ⟨_, -, h⟩ := h
        exact ih hrest h

theorem discoverPendingCandidate_found {source : CapturedDigests} {id : Uuid}
    {candidate : TranscriptRetryCandidate} {result : Option TranscriptRetryCandidate}
    (hstored : StoredCandidate name source m id candidate)
    (hpending : candidate.state = .candidateAvailableForComparison)
    (h : discoverPendingCandidate name meeting m = .ok result) : result = some candidate := by
  obtain ⟨mode, hdir, -⟩ := requirePrivateDirectory_eq_ok.mp hstored.retryPrivate
  obtain ⟨mode', hdir', -⟩ := requirePrivateDirectory_eq_ok.mp hstored.isPrivate
  unfold discoverPendingCandidate at h
  rw [if_neg (by rw [hdir]; exact Bool.false_ne_true)] at h
  simp only [bind_eq_ok] at h
  obtain ⟨_, -, h⟩ := h
  refine discoverEntries_pending hstored.loadReceipt hpending _ ?_ h
  exact List.mem_map.mpr ⟨_, Volume.mem_readDir.mpr ⟨rfl, hdir'⟩, rfl⟩

end Discovery

/-! ## Storing a candidate -/

section Storing

variable {B : Type} [Platform B] {name : String} {source : CapturedDigests}
  {m t : MeetingDirectory B} {id : Uuid}

/-- Nothing but new directories and transcripts. -/
def OnlyStores (m t : MeetingDirectory B) : Prop :=
  Calm (fun _ => False) m.tree t.tree ∧ t.record = m.record

omit [Platform B] in
theorem OnlyStores.refl (m : MeetingDirectory B) : OnlyStores m m := ⟨.refl _, rfl⟩

omit [Platform B] in
/-- A directory that `create_private_dir` made is private. -/
theorem createPrivateDir_private (p : MeetingPath) (v : ArtifactTree B) :
    Meets (createPrivateDir p) v (fun _ => True)
      (fun _ t => requirePrivateDirectory t p = .ok ()) (fun _ _ => True) := by
  unfold createPrivateDir
  refine bind_inspect (fun _ _ => ?_) fun _ _ => trivial
  have hall : Meets (createDirAll ((Location.ancestors p).reverse ++ [p])) v
      (Keeps (fun _ => False) v)
      (fun _ t => Keeps (fun _ => False) v t ∧ ∃ mode, t.node p = some (.directory mode))
      (fun _ t => Keeps (fun _ => False) v t) := createDirAll_keeps _ p v
  refine Meets.bind (hall.mono (fun _ _ => trivial) (fun _ t ht => ?_) fun _ _ _ => trivial)
  obtain ⟨-, mode, hmode⟩ := ht
  refine Meets.step (fun u hu => ?_) fun _ _ => trivial
  rw [Volume.setMode_of_directory 0o700 hmode, Except.ok.injEq] at hu
  subst hu
  exact ⟨trivial, requirePrivateDirectory_eq_ok.mpr ⟨0o700, Volume.node_place_self .., rfl⟩⟩

variable {bytes : B}

/-- A transcript that stands under its digest in a private directory. -/
theorem verifyArtifactRef_of_stored {transcript : ArtifactRef}
    (hpath : transcript.relativePath = revisionPath transcript.sha256)
    (hsha : validSha256 transcript.sha256 = true)
    (hdigest : transcript.sha256 = Platform.sha256 bytes)
    (hprivate : requirePrivateDirectory m.tree (.entry ["transcript"]) = .ok ())
    (hfile : m.tree.node (.entry (components transcript.relativePath)) = some (.file 0o600 bytes)) :
    verifyArtifactRef m.reader transcript = .ok () := by
  have hplace : components transcript.relativePath =
      ["transcript", transcript.sha256 ++ "." ++ "json"] := by
    rw [hpath, revisionPath_eq]
    exact components_digestNamed (by decide) (by decide) hsha (by decide)
  have hsafe : isSafeArtifactPath transcript.relativePath = true := by
    rw [hpath, revisionPath_eq]
    exact isSafeArtifactPath_digestNamed (by decide) (by decide) hsha (by decide)
  have hread : m.reader transcript.relativePath = .ok bytes := by
    unfold MeetingDirectory.reader ArtifactTree.reader
    rw [if_neg (by rw [hpath]; exact revisionPath_ne_record _), check_bind_eq_ok, forM_eq_ok]
    refine ⟨fun directory hdirectory => ?_, ?_⟩
    · rw [hplace] at hdirectory
      have hdirectory' : directory = ["transcript"] := by
        simpa [MeetingPath.above] using hdirectory
      rw [hdirectory']
      exact hprivate
    · unfold openPrivateFile
      rw [hfile]
      exact rfl
  unfold verifyArtifactRef hashArtifact
  rw [refuseIf_of_not (by simp [hsafe]), ok_bind, hread, ok_bind]
  exact refuseIf_of_not (not_not_intro hdigest.symm)

omit [Platform B] in
/-- Work on the tree, as work on the meeting. -/
theorem inTree_onlyStores {ε : Type} {program : Durable (ArtifactTree B) ε Unit}
    {Q : Unit → ArtifactTree B → Prop} (hcalm : Moves (Calm fun _ => False) program)
    (hlater : OnlyStores m t)
    (hQ : Meets program t.tree (fun _ => True) Q fun _ _ => True) :
    Meets (MeetingDirectory.inTree program) t (OnlyStores m)
      (fun a u => OnlyStores m u ∧ Q a u.tree) (fun _ => OnlyStores m) := by
  have hall := (hcalm.meets (s := t.tree) Calm.refl fun _ h => h).and hQ
  have hstores : ∀ u, Calm (fun _ => False) t.tree u → OnlyStores m { t with tree := u } :=
    fun u hu => ⟨hlater.1.trans hu, hlater.2⟩
  unfold MeetingDirectory.inTree
  exact Meets.zoom rfl (hall.mono (fun u hu => hstores u hu.1) (fun _ u hu => ⟨hstores u hu.1, hu.2⟩)
    fun _ u hu => hstores u hu.1)

/-- The transcript is stored, or was there. -/
theorem storeCandidate_meets [DecidableEq B] (m : MeetingDirectory B) {transcript : ArtifactRef}
    (hpath : transcript.relativePath = revisionPath transcript.sha256)
    (hsha : validSha256 transcript.sha256 = true)
    (hdigest : transcript.sha256 = Platform.sha256 bytes) (nonce : Uuid) :
    Meets (storeCandidate nonce bytes transcript) m (OnlyStores m)
      (fun _ t => OnlyStores m t ∧ verifyArtifactRef t.reader transcript = .ok ())
      (fun _ => OnlyStores m) := by
  have hplace : components transcript.relativePath =
      ["transcript", transcript.sha256 ++ "." ++ "json"] := by
    rw [hpath, revisionPath_eq]
    exact components_digestNamed (by decide) (by decide) hsha (by decide)
  unfold storeCandidate
  refine (inTree_onlyStores (createPrivateDir_calm _).mapError (.refl m) (Meets.mapError
    (createPrivateDir_private (.entry ["transcript"]) m.tree))).seq fun _ t ⟨ht, hprivate⟩ => ?_
  refine bind_inspect (fun present _ => ?_) fun _ _ => ht
  split
  · refine bind_inspect (fun _ hverified => ?_) fun _ _ => ht
    refine bind_inspect (fun _ _ => ?_) fun _ _ => ht
    rw [mapError_eq_ok] at hverified
    exact Meets.inspect (fun _ _ => ⟨ht, hverified⟩) fun _ _ => ht
  · have hname : NamedIn (.entry ["transcript"]) (MeetingPath.entry (components transcript.relativePath)) := by
      rw [hplace]
      exact ⟨rfl, by simp [Location.ancestors, MeetingPath.above], by simp⟩
    have hother : MeetingPath.entry (components transcript.relativePath) ≠
        .temporary (components transcript.relativePath) nonce := by simp
    have hcalm : Moves (Calm fun _ => False)
        (durableCreateNew (.entry (components transcript.relativePath))
          (.temporary (components transcript.relativePath) nonce) bytes) := by
      rw [hplace]
      exact createTranscript_calm nonce bytes
    have hmade := ((durableCreateNew_target bytes hname hother t.tree).and
      (hcalm.meets (s := t.tree) Calm.refl fun _ h => h)).mono (fun _ _ => trivial)
      (fun _ u hu => (⟨hu.1.2, hu.2.keeps⟩ : _ ∧ Keeps Shallow t.tree u)) fun _ _ _ => trivial
    refine (inTree_onlyStores hcalm.mapError ht (Meets.mapError hmade)).mono (fun _ h => h)
      (fun _ u hu => ⟨hu.1, ?_⟩) fun _ _ h => h
    obtain ⟨-, hfile, hkeeps⟩ := hu
    exact verifyArtifactRef_of_stored hpath hsha hdigest
      (hkeeps.isPrivate (by simp [Shallow]) hprivate) hfile

/-! ### The receipt -/

/-- A tree with the receipt of a candidate that had none. -/
structure NewReceipt (candidate : TranscriptRetryCandidate) (v u : ArtifactTree B) : Prop where
  free : v.node (receiptPath candidate.operationId) = none
  file : u.node (receiptPath candidate.operationId) = some (.file 0o600 (toVecPretty candidate))
  retryPrivate : requirePrivateDirectory u retryDir = .ok ()
  isPrivate : requirePrivateDirectory u (operationDir candidate.operationId) = .ok ()

/-- A tree where the receipt of an operation is as before, with the other
receipts and all shallow places. -/
def SameReceipt (id : Uuid) (v u : ArtifactTree B) : Prop :=
  Calm (fun other => other = id) v u ∧ u.node (receiptPath id) = v.node (receiptPath id)

omit [Platform B] in
/-- A directory above the receipt is made, and is private from then on. -/
theorem createAbove_meets {p : MeetingPath} {v t : ArtifactTree B}
    (hp : receiptPath id ∉ Location.ancestors p) (hne : receiptPath id ≠ p)
    (hsame : SameReceipt id v t) : Meets (createPrivateDir p) t (SameReceipt id v)
      (fun _ u => SameReceipt id v u ∧ Calm (fun _ => False) t u ∧ requirePrivateDirectory u p = .ok ())
      (fun _ => SameReceipt id v) := by
  have hcalm := (createPrivateDir_calm (B := B) p).meets (s := t) Calm.refl fun _ h => h
  have hoff := (createPrivateDir_off (B := B) p).meets (s := t)
    (I := fun u => u.node (receiptPath id) = t.node (receiptPath id)) (fun _ _ _ _ => rfl)
    fun u hu => hu _ hp hne
  have hfrom : ∀ u, Calm (fun _ => False) t u → u.node (receiptPath id) = t.node (receiptPath id) →
      SameReceipt id v u := fun u hu hnode => ⟨hsame.1.trans hu.mono, hnode.trans hsame.2⟩
  exact ((hcalm.and hoff).and (createPrivateDir_private p t)).mono (fun u hu => hfrom u hu.1.1 hu.1.2)
    (fun _ u hu => ⟨hfrom u hu.1.1 hu.1.2, hu.1.1, hu.2⟩) fun _ u hu => hfrom u hu.1.1 hu.1.2

theorem storeReceipt_target (nonce : Uuid) (candidate : TranscriptRetryCandidate)
    (v : ArtifactTree B) :
    Meets (storeReceipt nonce candidate) v
      (fun u => SameReceipt candidate.operationId v u ∨
        Calm (fun other => other = candidate.operationId) v u ∧ NewReceipt candidate v u)
      (fun _ u => Calm (fun other => other = candidate.operationId) v u ∧ NewReceipt candidate v u)
      (fun _ u => SameReceipt candidate.operationId v u) := by
  have habove : ∀ id : Uuid, receiptPath id ∉ Location.ancestors retryDir ∧ receiptPath id ≠ retryDir ∧
      receiptPath id ∉ Location.ancestors (operationDir id) ∧ receiptPath id ≠ operationDir id := by
    intro id
    simp [Location.ancestors, MeetingPath.above, receiptPath, receiptComponents, retryDir, operationDir]
  obtain ⟨hretry, hretry', hdir, hdir'⟩ := habove candidate.operationId
  unfold storeReceipt
  refine Meets.bind (Meets.mapError ((createAbove_meets hretry hretry' ⟨.refl v, rfl⟩).mono
    (fun _ h => .inl h) (fun _ t ht => ?_) fun _ _ h => h))
  obtain ⟨ht, -, hprivate⟩ := ht
  refine Meets.bind (Meets.mapError ((createAbove_meets hdir hdir' ht).mono (fun _ h => .inl h)
    (fun _ u hu => ?_) fun _ _ h => h))
  obtain ⟨hu, hcalm, hprivate'⟩ := hu
  have hother : receiptPath candidate.operationId ≠
      .temporary (receiptComponents candidate.operationId) nonce := by simp [receiptPath]
  have htarget := durableCreateNew_target (B := B) (toVecPretty candidate)
    (namedIn_receipt candidate.operationId) hother u
  have hmoves : Moves (Frame fun p => p = receiptPath candidate.operationId ∨
      p = .temporary (receiptComponents candidate.operationId) nonce)
      (durableCreateNew (receiptPath candidate.operationId)
        (.temporary (receiptComponents candidate.operationId) nonce) (toVecPretty (B := B) candidate)) :=
    durableCreateNew_moves _ (.inl rfl) (.inr rfl)
  have hall := htarget.and ((receipt_calm hmoves).meets (s := u) Calm.refl fun _ h => h)
  have hnew : ∀ w, u.node (receiptPath candidate.operationId) = none ∧
      w.node (receiptPath candidate.operationId) = some (.file 0o600 (toVecPretty candidate)) →
      Calm (fun other => other = candidate.operationId) u w →
      Calm (fun other => other = candidate.operationId) v w ∧ NewReceipt candidate v w :=
    fun w hfile hw => ⟨hu.1.trans hw, hu.2.symm.trans hfile.1, hfile.2,
      hw.keeps.isPrivate (shallow_places candidate.operationId).1
        (hcalm.keeps.isPrivate (shallow_places candidate.operationId).1 hprivate),
      hw.keeps.isPrivate (shallow_places candidate.operationId).2.1 hprivate'⟩
  refine Meets.mapError (hall.mono (fun w hw => ?_) (fun _ w hw => hnew w hw.1 hw.2)
    fun _ w hw => ⟨hu.1.trans hw.2, hw.1.trans hu.2⟩)
  rcases hw.1 with hsame | hfile
  · exact .inl ⟨hu.1.trans hw.2, hsame.trans hu.2⟩
  · exact .inr (hnew w hfile hw.2)

/-! ### The call -/

/-- A step that leaves the record. -/
def QuietStep (name : String) (source : CapturedDigests) (m t : MeetingDirectory B) : Prop :=
  RetryStep name source m t ∧ t.record = m.record

theorem QuietStep.of_stores (h : Retryable name source m) (hstores : OnlyStores m t) :
    QuietStep name source m t := ⟨.of_calm h hstores.2 hstores.1, hstores.2⟩

theorem QuietStep.trans {n : MeetingDirectory B} (hmt : QuietStep name source m t)
    (htn : QuietStep name source t n) : QuietStep name source m n :=
  ⟨hmt.1.trans htn.1, htn.2.trans hmt.2⟩

/-- The receipt of a new candidate is stored where no candidate is pending. -/
theorem storeReceipt_meets {candidate : TranscriptRetryCandidate} (h : Retryable name source m)
    (hnone : ∀ other c, StoredCandidate name source m other c →
      c.state ≠ .candidateAvailableForComparison)
    (hshape : validateCandidateShape candidate = .ok ()) (hmeeting : candidate.meetingId = name)
    (hsession : candidate.captureSessionSha256 = source.session)
    (hmicrophone : candidate.microphoneAudioSha256 = source.microphone)
    (hsystem : candidate.systemAudioSha256 = source.system)
    (hverified : verifyArtifactRef m.reader candidate.candidateTranscript = .ok ()) (nonce : Uuid) :
    Meets (MeetingDirectory.inTree (storeReceipt nonce candidate)) m (QuietStep name source m)
      (fun _ t => QuietStep name source m t ∧
        StoredCandidate name source t candidate.operationId candidate)
      (fun _ => QuietStep name source m) := by
  have hsame : ∀ u, SameReceipt candidate.operationId m.tree u →
      QuietStep name source m { m with tree := u } :=
    fun u hu => ⟨.of_calm h rfl (hu.1.of_same hu.2), rfl⟩
  have hnew : ∀ u, Calm (fun other => other = candidate.operationId) m.tree u →
      NewReceipt candidate m.tree u → QuietStep name source m { m with tree := u } ∧
        StoredCandidate name source { m with tree := u } candidate.operationId candidate := by
    intro u hcalm hu
    have hstored : StoredCandidate name source { m with tree := u } candidate.operationId candidate := {
      file := hu.file
      shape := hshape
      operationId := rfl
      meetingId := hmeeting
      session := hsession
      microphone := hmicrophone
      system := hsystem
      verified := verified_of_shallow (t := { m with tree := u }) hcalm.keeps hshape hverified
      retryPrivate := hu.retryPrivate
      isPrivate := hu.isPrivate }
    exact ⟨⟨.of_created h hnone hu.free rfl hcalm hstored, rfl⟩, hstored⟩
  unfold MeetingDirectory.inTree
  refine Meets.zoom rfl ((storeReceipt_target nonce candidate m.tree).mono (fun u hu => ?_)
    (fun _ u hu => hnew u hu.1 hu.2) fun _ u hu => hsame u hu)
  rcases hu with hu | hu
  · exact hsame u hu
  · exact (hnew u hu.1 hu.2).1

/-- What `create_candidate` asks for leaves no candidate pending. -/
theorem none_pending_of_admitCandidate {binding : TranscriptRetrySourceBinding}
    {meeting : MeetingRecord} (habsent : m.tree.node (operationDir id) = none)
    (h : admitCandidate name id binding meeting m = .ok ()) (other : Uuid)
    (candidate : TranscriptRetryCandidate) (hstored : StoredCandidate name source m other candidate) :
    candidate.state ≠ .candidateAvailableForComparison := by
  intro hpending
  unfold admitCandidate at h
  simp only [bind_eq_ok, refuseIf_eq_ok] at h
  obtain ⟨_, -, _, -, _, -, found, hfound, _, hsame, -⟩ := h
  rw [discoverPendingCandidate_found hstored hpending hfound, Option.any_some, decide_eq_true_eq,
    not_not, hstored.operationId] at hsame
  obtain ⟨mode, hdir, -⟩ := requirePrivateDirectory_eq_ok.mp hstored.isPrivate
  rw [hsame, habsent] at hdir
  cases hdir

theorem createCandidateIn_meets [DecidableEq B] (h : Retryable name source m) (choices : Choices)
    (id : Uuid) (bytes : B) (binding : TranscriptRetrySourceBinding) :
    Meets (createCandidateIn choices name id bytes binding) m (QuietStep name source m)
      (fun outcome t => QuietStep name source m t ∧
        ∃ candidate, StoredCandidate name source t id candidate ∧ candidate.state = outcome)
      (fun _ => QuietStep name source m) := by
  have hsame : QuietStep name source m m := ⟨.refl h, rfl⟩
  unfold createCandidateIn
  refine bind_inspect (fun meeting hmeeting => ?_) fun _ _ => hsame
  refine bind_lift (fun _ _ => ?_) fun _ _ => hsame
  refine bind_lift (fun _ _ => ?_) fun _ _ => hsame
  refine bind_lift (fun _ hdigest => ?_) fun _ _ => hsame
  refine bind_inspect (fun _ _ => ?_) fun _ _ => hsame
  refine bind_inspect (fun present hpresent => ?_) fun _ _ => hsame
  rw [refuseIf_eq_ok, not_not] at hdigest
  rw [Except.ok.injEq] at hpresent
  split
  · -- the operation has a directory
    refine Meets.inspect (fun outcome houtcome => ⟨hsame, ?_⟩) fun _ _ => hsame
    unfold existingCandidate at houtcome
    simp only [bind_eq_ok] at houtcome
    obtain ⟨_, -, candidate, hload, _, -, _, -, _, -, hstate⟩ := houtcome
    exact ⟨candidate, h.stored hload, Except.ok.inj hstate⟩
  · rename_i habsent
    have habsent' : m.tree.node (operationDir id) = none := by
      rw [← Option.not_isSome_iff_eq_none, hpresent]
      exact habsent
    refine bind_inspect (fun _ hadmitted => ?_) fun _ _ => hsame
    have hnone : ∀ other candidate, StoredCandidate name source m other candidate →
        candidate.state ≠ .candidateAvailableForComparison :=
      none_pending_of_admitCandidate habsent' hadmitted
    unfold admitCandidate at hadmitted
    simp only [bind_eq_ok, refuseIf_eq_ok, not_not] at hadmitted
    obtain ⟨_, -, _, -, _, hbinding, found, -, _, -, hshape⟩ := hadmitted
    -- the new candidate is bound to the capture of the meeting
    obtain ⟨meeting', heligible, hsource⟩ := h.eligible
    rw [loadSource_eq_ok] at hmeeting
    have hmeeting' : meeting' = meeting := Except.ok.inj (heligible.loaded.symm.trans hmeeting.loaded)
    subst hmeeting'
    obtain ⟨-, hsession, hmicrophone, hsystem⟩ := hbinding
    rw [hsource.session, Option.some.injEq] at hsession
    rw [hsource.microphone, Option.some.injEq] at hmicrophone
    rw [hsource.system, Option.some.injEq] at hsystem
    have hsha : validSha256 binding.candidateTranscriptSha256 = true := by
      have hshape' := hshape
      unfold validateCandidateShape at hshape'
      simp only [refuseIf_eq_ok, not_or, not_not] at hshape'
      exact hshape'.2.2.2.2.2.2
    have hstore : Meets
        (storeCandidate choices.candidate bytes (newCandidate name id binding).candidateTranscript) m
        (OnlyStores m)
        (fun _ t => OnlyStores m t ∧
          verifyArtifactRef t.reader (newCandidate name id binding).candidateTranscript = .ok ())
        (fun _ => OnlyStores m) := storeCandidate_meets m rfl hsha hdigest choices.candidate
    refine Meets.bind (hstore.mono (fun t ht => .of_stores h ht) (fun _ t ht => ?_)
      fun _ t ht => .of_stores h ht)
    obtain ⟨hstores, hverified⟩ := ht
    have hstep := QuietStep.of_stores h hstores
    have hnone' : ∀ other candidate, StoredCandidate name source t other candidate →
        candidate.state ≠ .candidateAvailableForComparison := fun other candidate hstored =>
      hnone other candidate (h.stored_of_calm hstores.1 not_false hstored)
    refine Meets.bind ((storeReceipt_meets hstep.1.retryable hnone' hshape rfl hsession.symm
      hmicrophone.symm hsystem.symm hverified choices.receipt).mono (fun u hu => hstep.trans hu)
      (fun _ u hu => ?_) fun _ u hu => hstep.trans hu)
    exact Meets.pure ⟨hstep.trans hu.1, _, hu.2, rfl⟩

/-- A candidate that is admitted is stored, and then its receipt. -/
theorem createCandidateIn_of_admitted [DecidableEq B] {choices : Choices}
    {binding : TranscriptRetrySourceBinding} {meeting : MeetingRecord}
    {first second : Outcome (MeetingDirectory B) TranscriptRetryError Unit}
    (heligible : Eligible name m meeting)
    (hsize : ¬ (ByteString.size bytes = 0 ∨ ByteString.size bytes > maxTranscriptBytes))
    (hbinding : validateBindingShape binding = .ok ())
    (hdigest : binding.candidateTranscriptSha256 = Platform.sha256 bytes)
    (hchecked : checkOperationDir id m.tree = .ok ())
    (habsent : m.tree.node (operationDir id) = none)
    (hadmitted : admitCandidate name id binding meeting m = .ok ())
    (hfirst : (storeCandidate choices.candidate bytes
      (newCandidate name id binding).candidateTranscript).exec m = first)
    (hsecond : (MeetingDirectory.inTree (storeReceipt choices.receipt
      (newCandidate name id binding))).exec (first.final m) = second)
    (hstored : first.result = .ok ()) (hreceipt : second.result = .ok ()) :
    (createCandidateIn choices name id bytes binding).exec m =
      ⟨first.trace ++ second.trace, .ok .candidateAvailableForComparison⟩ := by
  subst hfirst hsecond
  unfold createCandidateIn
  rw [bind_inspect_of_ok _ (loadSource_eq_ok.mpr heligible),
    bind_lift_of_ok _ _ (refuseIf_of_not hsize), bind_lift_of_ok _ _ hbinding,
    bind_lift_of_ok _ _ (refuseIf_of_not (not_not_intro hdigest)),
    bind_inspect_of_ok _ (by exact hchecked), bind_look, habsent, Option.isSome_none,
    if_neg Bool.false_ne_true, bind_inspect_of_ok _ hadmitted,
    bind_of_ok _ hstored, bind_of_ok _ hreceipt]
  exact congrArg (fun trace => Outcome.mk (_ ++ trace) _) (List.append_nil _)

end Storing

/-! ## Restorations -/

section Restorations

variable {B : Type} [Platform B] [DecidableEq B] {name : String} {source : CapturedDigests}
  {m t : MeetingDirectory B}

/-- The record that publishes a restoration is one that a retry may work on. -/
theorem published_eligible {meeting produced : MeetingRecord} {request : TranscriptRestorationRequest}
    {result : TranscriptRestorationResult} (h : Eligible request.meetingId.text m meeting)
    (hprepared : prepareApply m.reader request result =
      .ok produced) :
    produced.Valid B request.meetingId.text ∧
      Eligible request.meetingId.text { m with record := some (toVecPretty produced) } produced ∧
      (source.Of meeting → source.Of produced) := by
  have hload : loadAndVerifyMeeting m.reader request.meetingId =
      .ok meeting := by
    unfold loadAndVerifyMeeting
    rw [h.loaded, mapError_ok, ok_bind, h.verified]
    rfl
  have hvalid : produced.Valid B request.meetingId.text :=
    (MeetingRecord.validate_eq_ok B _ _).mp (produced_valid
      (loadMeeting_eq_ok h.loaded) hload hprepared)
  obtain ⟨hproduced, hstored, -⟩ := Restorable.of_prepareApply hload hprepared
  have hview := (inspectStoredResult_eq_ok hstored).view
  subst hproduced
  refine ⟨hvalid, h.replaced hvalid rfl (.inr (.inl rfl)) h.pending fun r hr => ?_,
    fun hsource => ⟨hsource.session, hsource.microphone, hsource.system⟩⟩
  rcases references_publishedMeeting hr with hold | rfl
  · exact .inl hold
  · exact .inr hview

theorem applyRestorationIn_meets {request : TranscriptRestorationRequest}
    {result : TranscriptRestorationResult} (h : Retryable request.meetingId.text source m) :
    Meets (applyRestorationIn request result) m (RetryStep request.meetingId.text source m)
      (fun _ => RetryStep request.meetingId.text source m)
      (fun _ => RetryStep request.meetingId.text source m) := by
  unfold applyRestorationIn
  refine bind_inspect (fun produced hprepared => ?_) fun _ _ => .refl h
  obtain ⟨meeting, heligible, hsource⟩ := h.eligible
  obtain ⟨hvalid, hproduced, hcaptured⟩ := published_eligible heligible hprepared
  exact Meets.mapError ((writeMeeting_meets hvalid h hproduced (hcaptured hsource)).mono
    (fun _ ht => ht.1) (fun _ _ ht => ht.1) fun _ _ hfalse => hfalse.elim)

theorem executeRestorationIn_meets (worker : RestorationWorker B)
    {request : TranscriptRestorationRequest} (h : Retryable request.meetingId.text source m) :
    Meets (executeRestorationIn worker request) m (RetryStep request.meetingId.text source m)
      (fun _ => RetryStep request.meetingId.text source m)
      (fun _ => RetryStep request.meetingId.text source m) := by
  unfold executeRestorationIn
  refine bind_inspect (fun prepared _ => ?_) fun _ _ => .refl h
  have hstores : ∀ u, StoresTranscripts m.tree u →
      RetryStep request.meetingId.text source m { m with tree := u } :=
    fun u hu => .of_calm h rfl hu.calm
  have hworker := ((worker.stores prepared.2).meets (s := m.tree) StoresTranscripts.refl hstores)
  unfold MeetingDirectory.inTree
  refine (Meets.zoom rfl (Meets.mapError hworker)).seq fun _ t ht => ?_
  refine bind_inspect (fun _ _ => ?_) fun _ _ => ht
  exact (applyRestorationIn_meets ht.retryable).mono (fun _ hu => ht.trans hu) (fun _ _ hu => ht.trans hu)
    fun _ _ hu => ht.trans hu

end Restorations

end TranscriptRetry

end YawnApp.SessionCore
