import YawnApp.SessionCore.QueueClaims

set_option autoImplicit false

/-!
# A transcript through the queue

The way of one request when nothing goes wrong: it is enqueued and claimed, the
worker's transcript is stored and admitted, and the commit publishes it in the
record of the meeting.  The two last steps are shown here to answer whenever the
request is open and its source is ready.
-/

namespace YawnApp.SessionCore

open YawnApp.Foundation TranscriptionQueue Meets

variable {B : Type} [Platform B] [DecidableEq B]

/-! ## Storing the transcript -/

/-- The first transcript of a meeting is stored in a new directory. -/
theorem storeTranscript_of_absent {tree : ArtifactTree B} {bytes : B} {transcript : ArtifactRef}
    {nonce : Uuid} {file : String} {mode : Nat} (hroot : tree.node (.entry []) = some (.directory mode))
    (habsent : tree.node (.entry ["transcript"]) = none)
    (hsafe : isSafeArtifactPath transcript.relativePath = true)
    (hpath : components transcript.relativePath = ["transcript", file])
    (hfile : tree.node (.entry ["transcript", file]) = none)
    (htemporary : tree.node (.temporary ["transcript", file] nonce) = none) :
    Meets (storeTranscript bytes transcript nonce) tree (fun _ => True)
      (fun _ t => t.node (.entry ["transcript"]) = some (.directory 0o700) ∧
        t.node (.entry ["transcript", file]) = some (.file 0o600 bytes))
      (fun _ _ => False) := by
  obtain ⟨made, hdef⟩ : ∃ made, made = (tree.place (.entry ["transcript"]) (.directory 0o755)).place
    (.entry ["transcript"]) (.directory 0o700) := ⟨_, rfl⟩
  have hmade : made.node (.entry ["transcript"]) = some (.directory 0o700) := by
    rw [hdef, Volume.node_place_self]
  have hkept : ∀ p, p ≠ .entry ["transcript"] → made.node p = tree.node p := fun p hp => by
    rw [hdef, Volume.node_place_of_ne _ hp, Volume.node_place_of_ne _ hp]
  have hmkdir : (createPrivateDir (.entry ["transcript"])).exec tree =
      ⟨[tree.place (.entry ["transcript"]) (.directory 0o755), made], .ok ()⟩ := by
    rw [hdef]
    apply createPrivateDir_of_absent habsent
    · intro q hq
      change q ∈ [MeetingPath.entry []] at hq
      rw [List.mem_singleton] at hq
      exact ⟨mode, hq ▸ hroot⟩
    · exact Volume.parentPresent_of_directory rfl hroot
  have hagain : (createPrivateDir (.entry ["transcript"])).exec made =
      ⟨[made.place (.entry ["transcript"]) (.directory 0o700)], .ok ()⟩ := by
    apply createPrivateDir_of_present hmade
    intro q hq
    change q ∈ [MeetingPath.entry []] at hq
    rw [List.mem_singleton] at hq
    exact ⟨mode, by rw [hq, hkept _ (by simp), hroot]⟩
  obtain ⟨ready, hdef'⟩ : ∃ ready, ready = made.place (.entry ["transcript"]) (.directory 0o700) :=
    ⟨_, rfl⟩
  rw [← hdef'] at hagain
  have hready : ∀ p, p ≠ .entry ["transcript"] → ready.node p = tree.node p := fun p hp => by
    rw [hdef', Volume.node_place_of_ne _ hp, hkept p hp]
  have hfresh : FreshPair ready (.entry ["transcript"]) (.entry ["transcript", file])
      (.temporary ["transcript", file] nonce) := {
    present := ⟨0o700, by rw [hdef', Volume.node_place_self]⟩
    above := by
      intro q hq
      change q ∈ [MeetingPath.entry []] at hq
      rw [List.mem_singleton] at hq
      exact ⟨mode, by rw [hq, hready _ (by simp), hroot]⟩
    targetParent := rfl
    temporaryParent := rfl
    targetFree := by rw [hready _ (by simp), hfile]
    temporaryFree := by rw [hready _ (by simp), htemporary]
    distinct := by simp }
  have hcreate := durableCreateNew_of_fresh bytes hfresh
  have hresolve : resolveArtifact transcript.relativePath made = .ok () := by
    unfold resolveArtifact
    rw [refuseIf_of_not (not_not.mpr hsafe), ok_bind, hpath]
    change (do requirePrivateDirectory made (.entry ["transcript"]); pure ()) = _
    rw [requirePrivateDirectory_of_private hmade]
    rfl
  have hnone : pathExists (.entry ["transcript", file]) made = false := by
    unfold pathExists
    rw [hkept _ (by simp), hfile]
  unfold storeTranscript
  apply Meets.bind
  refine (Meets.mapError (of_eq_ok hmkdir (fun _ _ => trivial) ?_))
  change Meets _ made _ _ _
  refine bind_inspect (fun _ _ => ?_) fun e he => ?_
  · refine bind_inspect (fun found hfound => ?_) fun e he => by cases he
    rw [hpath, hnone, Except.ok.injEq] at hfound
    rw [← hfound, hpath, if_neg Bool.false_ne_true]
    refine bind_lift (fun parent hparent => ?_) fun e he => by cases he
    cases hparent
    apply Meets.bind
    refine (Meets.mapError (of_eq_ok hagain (fun _ _ => trivial) ?_))
    change Meets _ ready _ _ _
    refine Meets.mapError (of_eq_ok hcreate (fun _ _ => trivial) ?_)
    simp [linkNewTrace, Volume.node_place, Volume.node_clear]
  · rw [hresolve] at he
    cases he

/-! ## Admitting and committing it -/

section Item

variable {name : String} {m : MeetingDirectory B} {id : Uuid} {v : ItemView B}
  {item : TranscriptionQueueItem} {meeting : MeetingRecord}

/-- The result of an open request without one is admitted, once its transcript is
stored. -/
theorem admitResultIn_admits {transcriptBytes : B} {transcript : ArtifactRef} {nonce : Uuid}
    {clock : UInt64} {stored : ArtifactTree B → Prop} (hv : m.view? id = some v)
    (hshows : v.Shows id item) (hopen : item.isOpen = true) (hnone : item.result = none)
    (hsource : loadSource name item.request m = .ok meeting)
    (hdigest : transcript.sha256 = Platform.sha256 transcriptBytes)
    (href : verifyTranscriptRef transcript = .ok ())
    (hstore : Meets (storeTranscript transcriptBytes transcript nonce) m.tree (fun _ => True)
      (fun _ t => stored t) (fun _ _ => False))
    (hread : ∀ tree, Keeps MeetingPath.IsEntry m.tree tree → stored tree →
      verifyArtifactRef (ArtifactTree.reader tree) transcript = .ok ())
    (hfits : Fits B (⟨.v1, id, item.request.meetingId, transcript, Platform.sha256 transcriptBytes,
      clock⟩ : TranscriptionResult)) :
    Meets (admitResultIn name id transcriptBytes transcript clock nonce) m (fun _ => True)
      (fun _ t => verifyArtifactRef t.reader transcript = .ok () ∧
        Becomes m t m.record (setView m.view? id (v.link .result (toVecPretty
          (⟨.v1, id, item.request.meetingId, transcript, Platform.sha256 transcriptBytes, clock⟩ :
            TranscriptionResult)))))
      (fun _ _ => False) := by
  obtain ⟨hcommit, hterminal⟩ := isOpen_iff.mp hopen
  have hpath := path_ne_of_verifyTranscriptRef href
  have hload := loadItemOf_eq_ok.mpr ⟨v, hv, hshows⟩
  have hchecked := (loadSource_eq_ok.mp hsource).2.2.2
  have hopen' : refuseIf (item.terminal.isSome = true ∨ item.commit.isSome = true)
      TranscriptionQueueError.terminal = .ok () := refuseIf_of_not (by simp [hcommit, hterminal])
  have hsame : refuseIf (transcript.sha256 ≠ Platform.sha256 transcriptBytes)
      TranscriptionQueueError.sourceChanged = .ok () := refuseIf_of_not (not_not.mpr hdigest)
  unfold admitResultIn
  refine bind_inspect (fun found hfound => ?_) fun e he => by rw [hload] at he; cases he
  rw [hload, Except.ok.injEq] at hfound
  subst hfound
  refine bind_inspect (fun found hfound => ?_) fun e he => by rw [hsource] at he; cases he
  rw [hsource, Except.ok.injEq] at hfound
  subst hfound
  refine bind_inspect (fun _ _ => ?_) fun e he => by rw [hchecked] at he; cases he
  refine bind_lift (fun _ _ => ?_) fun e he => by rw [hopen'] at he; cases he
  refine bind_lift (fun _ _ => ?_) fun e he => by rw [hsame] at he; cases he
  refine bind_lift (fun _ _ => ?_) fun e he => by rw [href] at he; cases he
  apply Meets.bind
  have hkeeps : Meets (storeTranscript transcriptBytes transcript nonce) m.tree
      (Keeps MeetingPath.IsEntry m.tree) (fun _ => Keeps MeetingPath.IsEntry m.tree)
      (fun _ => Keeps MeetingPath.IsEntry m.tree) :=
    (storeTranscript_keeps transcriptBytes transcript nonce).meets Keeps.refl fun _ h => h
  refine Meets.zoom rfl ((hkeeps.and hstore).mono (fun _ _ => trivial) (fun _ tree htree => ?_)
    fun _ _ h => h.2)
  have hreader : verifyArtifactRef ({ m with tree } : MeetingDirectory B).reader transcript = .ok () := by
    have hbelow : Reader.KeepsArtifacts (ArtifactTree.reader tree)
        ({ m with tree } : MeetingDirectory B).reader := by
      intro path hne bytes hbytes
      unfold MeetingDirectory.reader
      rwa [if_neg hne]
    exact verifyArtifactRef_of_keeps hbelow hpath (hread tree htree.1 htree.2)
  refine bind_inspect (fun _ _ => ?_) fun e he => by
    rw [mapError_eq_ok.mpr hreader] at he
    cases he
  have hlinked := hshows.link_result hopen hfits
  have hquiet : Quiet m { m with tree } := ⟨rfl, rfl, fun h => h, htree.1⟩
  have hview : ({ m with tree } : MeetingDirectory B).view? id = some v := by rw [hquiet.views, hv]
  refine (meets_receipt hview hshows.isPrivate (hshows.receipt_eq_none.1 hnone)).mono
    (fun _ _ => trivial) (fun _ u hu => ⟨?_, hquiet.becomes hu.2⟩) fun _ _ hu => hu.1 _ hlinked
  exact verifyArtifactRef_of_keeps hu.2.keepsArtifacts hpath hreader

omit [DecidableEq B] in
/-- The result of an open request over a captured meeting is published. -/
theorem commitIn_publishes {result : TranscriptionResult} (hsound : m.Sound name)
    (hv : m.view? id = some v) (hshows : v.Shows id item) (hopen : item.isOpen = true)
    (hresult : item.result = some result) (hsource : loadSource name item.request m = .ok meeting)
    (htranscript : verifyArtifactRef m.reader result.transcript = .ok ())
    (hvalid : (publishedRecord meeting result.transcript).validate B name = .ok ())
    (clock : UInt64) :
    Meets (commitIn name id clock) m (fun _ => True)
      (fun _ t => t.record = some (toVecPretty (publishedRecord meeting result.transcript)))
      (fun _ _ => False) := by
  obtain ⟨hcommit, hterminal⟩ := isOpen_iff.mp hopen
  obtain ⟨hname, hresults⟩ := (hsound id v hv).ofShows hshows
  obtain ⟨hmeeting, hcaptured, -, hchecked⟩ := loadSource_eq_ok.mp hsource
  have hload := loadItemOf_eq_ok.mpr ⟨v, hv, hshows⟩
  have hloadOf : loadMeetingOf name m = .ok meeting := mapError_eq_ok.mpr hmeeting
  unfold commitIn
  refine bind_inspect (fun found hfound => ?_) fun e he => by rw [hload] at he; cases he
  rw [hload, Except.ok.injEq] at hfound
  subst hfound
  refine bind_lift (fun found hfound => ?_) fun e he => by rw [hresult] at he; cases he
  rw [hresult, orRefuse_some, Except.ok.injEq] at hfound
  subst hfound
  refine bind_inspect (fun found hfound => ?_) fun e he => by rw [hloadOf] at he; cases he
  rw [hloadOf, Except.ok.injEq] at hfound
  subst hfound
  refine bind_inspect (fun _ _ => ?_) fun e he => by rw [hchecked] at he; cases he
  refine bind_inspect (fun _ _ => ?_) fun e he => by
    rw [mapError_eq_ok.mpr htranscript] at he
    cases he
  rw [hcommit]
  refine bind_lift (fun _ _ => ?_) fun e he => by
    rw [refuseIf_of_not (by simp [hterminal])] at he
    cases he
  apply Meets.bind
  have hbytes : (meetingBytes (publishedRecord meeting result.transcript) name).mapError
      TranscriptionQueueError.meeting =
        .ok (toVecPretty (publishedRecord meeting result.transcript) : B) := by
    unfold meetingBytes
    rw [hvalid]
    rfl
  unfold publish
  rw [if_neg (by rw [hcaptured]; nofun)]
  refine bind_lift (fun _ _ => ?_) fun e he => by
    rw [refuseIf_of_not (not_not.mpr hcaptured)] at he
    cases he
  refine bind_lift (fun bytes hfound => ?_) fun e he => by rw [hbytes] at he; cases he
  rw [hbytes, Except.ok.injEq] at hfound
  subst hfound
  refine of_eq_ok (MeetingDirectory.replaceRecord_apply _ m) (fun _ _ => trivial) ?_
  change Meets _ { m with record := some (toVecPretty (publishedRecord meeting result.transcript)) } _ _ _
  refine bind_inspect (fun written _ => ?_) fun e he => by cases he
  have hfits : Fits B (⟨.v1, id, item.request.meetingId, result.resultSha256,
      Platform.sha256 written, clock⟩ : TranscriptionCommit) :=
    TranscriptionCommit.fits (hname.1 ▸ hname.2) (hresults result hresult).2
      (Platform.validSha256_sha256 written)
  have hlinked := hshows.link_commit hopen (by rw [hresult]; rfl) hfits
  have hview : ({ m with record := some (toVecPretty (publishedRecord meeting result.transcript)) } :
    MeetingDirectory B).view? id = some v := hv
  exact (meets_receipt hview hshows.isPrivate (hshows.receipt_eq_none.2.2 hcommit)).mono
    (fun _ _ => trivial) (fun _ u hu => hu.2.record) fun _ _ hu => hu.1 _ hlinked

end Item

/-- What a call leaves that nothing interrupts. -/
theorem QueueCall.getLastD_states {call : QueueCall B} {library : Meetings B} {name : String}
    {m : MeetingDirectory B} (hm : library.entry name = some m)
    (hexec : call.program.exec library = (Directory.within name (call.inMeeting name)).exec library) :
    (call.states library).getLastD library =
      library.put name (((call.inMeeting name).exec m).final m) := by
  unfold QueueCall.states
  rw [hexec]
  exact Directory.final_within hm _

end YawnApp.SessionCore
