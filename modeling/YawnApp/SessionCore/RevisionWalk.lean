import YawnApp.SessionCore.RestorationRecovery

set_option autoImplicit false

/-!
# The walk of a revision chain

The first loop of `inspect_revision_chain` has no bound in its head: it ends because a
revision is passed once and because at most `maxTranscriptViewDepth` views are passed.
Here the loop is a step from state to state, it is shown to end whatever the reader
serves, and `walkRevisions` to be its result.  Then follows what an accepted chain is,
link by link.
-/

namespace YawnApp.SessionCore

open YawnApp.Foundation

section Walk

variable {B : Type} [Platform B] [DecidableEq B]

/-! ## The loop -/

/-- The variables of the loop: the revision it is at, the views it passed, the last one
first, and their bytes.  The revisions `seen` are those of the views. -/
structure WalkState where
  current : String
  views : List (String × TranscriptView)
  viewBytesTotal : Nat

/-- The body of the loop: it goes on at a parent or breaks at the base. -/
def walkStep (read : String → Except TranscriptArtifactError B) (meetingId : Uuid) (s : WalkState) :
    Except TranscriptArtifactError (WalkState ⊕ WalkedChain B) := do
  refuseIf (s.current ∈ s.views.map Prod.fst) .cyclic
  refuseIf (s.views.length ≥ maxTranscriptViewDepth) .tooDeep
  match ← readRevisionNode read meetingId s.current with
  | (bytes, .inl view) =>
    refuseIf (s.viewBytesTotal + ByteString.size bytes > maxTranscriptViewChainBytes) .tooDeep
    return .inl ⟨view.parentTranscriptSha256, (s.current, view) :: s.views,
      s.viewBytesTotal + ByteString.size bytes⟩
  | (bytes, .inr withheld) =>
    return .inr { views := s.views.reverse, baseDigest := s.current, withheld, baseBytes := bytes }

/-- The loop ends after so many rounds with a result. -/
inductive WalkEnds (read : String → Except TranscriptArtifactError B) (meetingId : Uuid) :
    WalkState → Nat → Except TranscriptArtifactError (WalkedChain B) → Prop
  | refused {s e} (h : walkStep read meetingId s = .error e) : WalkEnds read meetingId s 1 (.error e)
  | found {s chain} (h : walkStep read meetingId s = .ok (.inr chain)) :
      WalkEnds read meetingId s 1 (.ok chain)
  | next {s t rounds result} (h : walkStep read meetingId s = .ok (.inl t))
      (hrest : WalkEnds read meetingId t rounds result) :
      WalkEnds read meetingId s (rounds + 1) result

/-- Whatever the reader serves, the loop ends: the views passed and those still allowed
make the depth, and the last round finds no view allowed. -/
theorem walkRevisions_ends (read : String → Except TranscriptArtifactError B) (meetingId : Uuid) :
    ∀ {remaining : Nat} (s : WalkState), s.views.length + remaining = maxTranscriptViewDepth →
      ∃ rounds ≤ remaining + 1, WalkEnds read meetingId s rounds
        (walkRevisions read meetingId remaining s.current s.views s.viewBytesTotal) := by
  intro remaining
  induction remaining with
  | zero =>
    intro s hdepth
    refine ⟨1, Nat.le_refl _, .refused ?_⟩
    unfold walkStep
    by_cases hseen : s.current ∈ s.views.map Prod.fst
    · rw [refuseIf_of hseen, if_pos hseen]
      rfl
    · rw [refuseIf_of_not hseen, ok_bind, refuseIf_of (by omega), if_neg hseen]
      rfl
  | succ remaining ih =>
    intro s hdepth
    have hallowed : ¬ s.views.length ≥ maxTranscriptViewDepth := by omega
    unfold walkRevisions
    by_cases hseen : s.current ∈ s.views.map Prod.fst
    · rw [refuseIf_of hseen, error_bind]
      refine ⟨1, by omega, .refused ?_⟩
      unfold walkStep
      rw [refuseIf_of hseen]
      rfl
    · have hstep : walkStep read meetingId s = readRevisionNode read meetingId s.current >>= fun
          | (bytes, .inl view) => do
            refuseIf (s.viewBytesTotal + ByteString.size bytes > maxTranscriptViewChainBytes) .tooDeep
            return .inl ⟨view.parentTranscriptSha256, (s.current, view) :: s.views,
              s.viewBytesTotal + ByteString.size bytes⟩
          | (bytes, .inr withheld) =>
            return .inr ⟨s.views.reverse, s.current, withheld, bytes⟩ := by
        unfold walkStep
        rw [refuseIf_of_not hseen, ok_bind, refuseIf_of_not hallowed, ok_bind]
      rw [refuseIf_of_not hseen, ok_bind]
      cases hnode : readRevisionNode read meetingId s.current with
      | error =>
        rw [hnode] at hstep
        exact ⟨1, by omega, .refused hstep⟩
      | ok node =>
        rw [hnode, ok_bind] at hstep
        rw [ok_bind]
        obtain ⟨bytes, view | withheld⟩ := node
        · dsimp only at hstep ⊢
          by_cases hlarge : s.viewBytesTotal + ByteString.size bytes > maxTranscriptViewChainBytes
          · rw [refuseIf_of hlarge] at hstep ⊢
            exact ⟨1, by omega, .refused hstep⟩
          · rw [refuseIf_of_not hlarge, ok_bind] at hstep ⊢
            obtain ⟨rounds, hrounds, hends⟩ := ih ⟨view.parentTranscriptSha256,
              (s.current, view) :: s.views, s.viewBytesTotal + ByteString.size bytes⟩
              (by rw [List.length_cons]; omega)
            exact ⟨rounds + 1, by omega, .next hstep hends⟩
        · exact ⟨1, by omega, .found hstep⟩

/-! ## The links -/

/-- The views from a revision down to the base: each one was served for its digest, and
the next one is its parent. -/
inductive LinkedViews (read : String → Except TranscriptArtifactError B) (meetingId : Uuid)
    (base : String) : String → List (String × TranscriptView) → Prop
  | base : LinkedViews read meetingId base base []
  | view {current : String} {bytes : B} {view : TranscriptView} {rest : List (String × TranscriptView)}
      (h : readRevisionNode read meetingId current = .ok (bytes, .inl view))
      (hrest : LinkedViews read meetingId base view.parentTranscriptSha256 rest) :
      LinkedViews read meetingId base current ((current, view) :: rest)

theorem walkRevisions_linked {read : String → Except TranscriptArtifactError B} {meetingId : Uuid} :
    ∀ {remaining : Nat} {current : String} {views : List (String × TranscriptView)} {total : Nat}
      {chain : WalkedChain B},
      walkRevisions read meetingId remaining current views total = .ok chain →
      ∃ rest, chain.views = views.reverse ++ rest ∧ rest.length ≤ remaining ∧
        LinkedViews read meetingId chain.baseDigest current rest := by
  intro remaining
  induction remaining with
  | zero =>
    intro current views total chain h
    unfold walkRevisions at h
    cases h
  | succ remaining ih =>
    intro current views total chain h
    unfold walkRevisions at h
    simp only [bind_eq_ok] at h
    obtain ⟨-, -, ⟨bytes, node⟩, hnode, hrest⟩ := h
    cases node with
    | inl view =>
      simp only [bind_eq_ok] at hrest
      obtain ⟨-, -, hwalk⟩ := hrest
      obtain ⟨rest, hviews, hlength, hlinked⟩ := ih hwalk
      refine ⟨(current, view) :: rest, by rw [hviews]; simp, ?_, .view hnode hlinked⟩
      rw [List.length_cons]
      omega
    | inr =>
      cases hrest
      exact ⟨[], by simp, Nat.zero_le _, .base⟩

theorem LinkedViews.meetingId_eq {read : String → Except TranscriptArtifactError B} {meetingId : Uuid}
    {base current : String} {views : List (String × TranscriptView)}
    (h : LinkedViews read meetingId base current views) :
    ∀ entry ∈ views, entry.2.validate = .ok () ∧ entry.2.meetingId = meetingId ∧
      read entry.1 = .ok (toVecPretty entry.2) ∧ digestPretty B entry.2 = entry.1 := by
  induction h with
  | base => simp
  | view h _ ih =>
    obtain ⟨hread, hdigest, hvalid, hmeeting, rfl⟩ := readRevisionNode_eq_view h
    exact List.forall_mem_cons.mpr ⟨⟨hvalid, hmeeting, hread, hdigest⟩, ih⟩

end Walk

/-! ## What the views show -/

/-- The turns that the first of the views shows; the base shows none. -/
def shownBy : List (String × TranscriptView) → Finset UInt32
  | [] => ∅
  | (_, view) :: _ => view.restoredSourceTurnIndices.toFinset

/-- Each view shows one turn more than the one below it, of those that are withheld. -/
def OneTurnEach (withheld : Finset UInt32) : List (String × TranscriptView) → Prop
  | [] => True
  | (_, view) :: rest =>
    (∃ turn ∈ withheld, turn ∉ shownBy rest ∧
      view.restoredSourceTurnIndices.toFinset = insert turn (shownBy rest)) ∧
      OneTurnEach withheld rest

variable {withheld : Finset UInt32} {views : List (String × TranscriptView)}

theorem checkSuccessors_append {baseDigest : String} {entry : String × TranscriptView}
    {below : List (String × TranscriptView)} :
    ∀ {previousDigest : String} {restored shown : List UInt32},
      checkSuccessors baseDigest withheld (below ++ [entry]) previousDigest restored = .ok shown →
      ∃ lower, checkSuccessors baseDigest withheld below previousDigest restored = .ok lower ∧
        checkSuccessors baseDigest withheld [entry]
          ((below.getLast?.map Prod.fst).getD previousDigest) lower = .ok shown := by
  induction below with
  | nil =>
    intro previousDigest restored shown h
    exact ⟨restored, rfl, h⟩
  | cons first below ih =>
    intro previousDigest restored shown h
    obtain ⟨digest, view⟩ := first
    simp only [List.cons_append, checkSuccessors, bind_eq_ok] at h
    obtain ⟨_, hlink, _, hsubset, _, hone, hrest⟩ := h
    obtain ⟨lower, hbelow, hlast⟩ := ih hrest
    refine ⟨lower, ?_, ?_⟩
    · simp only [checkSuccessors, bind_eq_ok]
      exact ⟨_, hlink, _, hsubset, _, hone, hbelow⟩
    · cases below <;> exact hlast

/-- What the second loop accepts, of the views head first. -/
theorem checkSuccessors_oneTurnEach {baseDigest : String} : ∀ {shown : List UInt32},
      checkSuccessors baseDigest withheld views.reverse baseDigest [] = .ok shown →
      shown.toFinset = shownBy views ∧ OneTurnEach withheld views ∧
        (∀ entry ∈ views, entry.2.baseTranscriptSha256 = baseDigest) ∧
        ∀ entry ∈ views.head?, shown = entry.2.restoredSourceTurnIndices := by
  induction views with
  | nil =>
    intro shown h
    cases h
    exact ⟨rfl, trivial, by simp, by simp⟩
  | cons entry views ih =>
    intro shown h
    obtain ⟨digest, view⟩ := entry
    rw [List.reverse_cons] at h
    obtain ⟨lower, hbelow, hlast⟩ := checkSuccessors_append h
    obtain ⟨hlower, heach, hbases, -⟩ := ih hbelow
    simp only [checkSuccessors, bind_eq_ok, refuseIf_eq_ok, not_or, not_not] at hlast
    obtain ⟨_, hlink, _, hsubset, _, hone, heq⟩ := hlast
    obtain rfl := Except.ok.inj heq
    rw [hlower] at hone
    have hadded : ∃ turn, turn ∉ shownBy views ∧
        view.restoredSourceTurnIndices.toFinset = insert turn (shownBy views) := by
      obtain ⟨turn, hnew, hinsert⟩ := Finset.exists_eq_insert_iff.mpr ⟨hone.1, hone.2.symm⟩
      exact ⟨turn, hnew, hinsert.symm⟩
    obtain ⟨turn, hnew, hinsert⟩ := hadded
    have hwithheld : turn ∈ withheld := by
      apply hsubset
      rw [hinsert]
      exact Finset.mem_insert_self _ _
    refine ⟨rfl, ⟨⟨turn, hwithheld, hnew, hinsert⟩, heach⟩,
      List.forall_mem_cons.mpr ⟨hlink.1, hbases⟩, ?_⟩
    intro entry hentry
    obtain rfl := Option.mem_some_iff.mp hentry
    rfl

/-- There are as many turns shown as views. -/
theorem OneTurnEach.card (h : OneTurnEach withheld views) :
    (shownBy views).card = views.length := by
  induction views with
  | nil => rfl
  | cons entry views ih =>
    obtain ⟨⟨turn, -, hnew, hinsert⟩, hrest⟩ := h
    rw [shownBy, hinsert, Finset.card_insert_of_notMem hnew, ih hrest, List.length_cons]

theorem OneTurnEach.subset (h : OneTurnEach withheld views) : shownBy views ⊆ withheld := by
  induction views with
  | nil => exact Finset.empty_subset _
  | cons entry views ih =>
    obtain ⟨⟨turn, hturn, -, hinsert⟩, hrest⟩ := h
    rw [shownBy, hinsert]
    exact Finset.insert_subset hturn (ih hrest)

/-! ## The accepted chain -/

section Sound

variable {B : Type} [Platform B] [DecidableEq B]

/-- What `inspect_revision_chain` accepted: the views from the revision down to the base,
which show one withheld turn more each and belong to one meeting and one base. -/
structure AcceptedChain (read : String → Except TranscriptArtifactError B) (meetingId : Uuid)
    (x : InspectedTranscriptRevision) (baseBytes : B) (views : List (String × TranscriptView)) :
    Prop where
  linked : LinkedViews read meetingId x.baseTranscriptSha256 x.digest views
  base : readRevisionNode read meetingId x.baseTranscriptSha256 =
    .ok (baseBytes, .inr x.withheldSourceTurnIndices)
  depth : views.length ≤ maxTranscriptViewDepth
  head : x.headView = views.head?.map Prod.snd
  restored_subset : x.restoredSourceTurnIndices.toFinset ⊆ x.withheldSourceTurnIndices
  restored_length : x.restoredSourceTurnIndices.length = views.length
  shown : x.restoredSourceTurnIndices.toFinset = shownBy views
  oneTurnEach : OneTurnEach x.withheldSourceTurnIndices views
  shared : ∀ entry ∈ views, entry.2.meetingId = meetingId ∧
    entry.2.baseTranscriptSha256 = x.baseTranscriptSha256

theorem acceptedChain_of_inspect {read : String → Except TranscriptArtifactError B}
    {meetingId : Uuid} {digest : String} {x : InspectedTranscriptRevision} {baseBytes : B}
    (h : inspectRevisionChain read meetingId digest = .ok (x, baseBytes)) :
    x.digest = digest ∧ ∃ views, AcceptedChain read meetingId x baseBytes views := by
  unfold inspectRevisionChain at h
  simp only [bind_eq_ok] at h
  obtain ⟨_, -, chain, hwalk, restored, hcheck, heq⟩ := h
  cases heq
  obtain ⟨views, hviews, hdepth, hlinked⟩ := walkRevisions_linked hwalk
  rw [List.reverse_nil, List.nil_append] at hviews
  rw [hviews] at hcheck
  obtain ⟨hshown, heach, hbases, hhead⟩ := checkSuccessors_oneTurnEach hcheck
  have hvalid := hlinked.meetingId_eq
  have hnodup : restored.Nodup := by
    cases views with
    | nil =>
      cases hcheck
      exact List.nodup_nil
    | cons entry =>
      have hlast := hhead entry rfl
      obtain ⟨hview, -⟩ := hvalid entry List.mem_cons_self
      unfold TranscriptView.validate at hview
      simp only [bind_eq_ok, refuseIf_eq_ok, not_or, not_not] at hview
      obtain ⟨_, -, _, -, -, hincreasing⟩ := hview
      rw [hlast]
      exact strictlyIncreasing_nodup hincreasing
  refine ⟨rfl, views, hlinked, walkRevisions_base hwalk, hdepth, by rw [hviews], ?_, ?_, hshown,
    heach, fun entry hentry => ⟨(hvalid entry hentry).2.1, hbases entry hentry⟩⟩
  · rw [hshown]
    exact heach.subset
  · rw [← heach.card, ← hshown, List.toFinset_card_of_nodup hnodup]

/-- The bytes of a view are read as that view. -/
theorem readRevisionNode_of_view {read : String → Except TranscriptArtifactError B} {meetingId : Uuid}
    {digest : String} {view : TranscriptView} {node : B × (TranscriptView ⊕ Finset UInt32)}
    (hread : read digest = .ok (toVecPretty view))
    (h : readRevisionNode read meetingId digest = .ok node) : node = (toVecPretty view, .inl view) := by
  have hschema : ((Serde.toValue view).get "schema").bind Value.asStr = some "transcript-view/1" := by
    rfl
  unfold readRevisionNode at h
  simp only [hread, ok_bind, bind_eq_ok, valueFromSlice_toVecPretty, orRefuse_some, hschema,
    if_pos, Serde.fromValue_toValue] at h
  obtain ⟨_, -, _, -, _, -, heq⟩ := h
  exact (Except.ok.inj heq).symm

/-- The inspection of a revision chain is sound, whatever the reader serves.  It ends, and
what it accepts is a chain of views of one meeting over one base, each showing one withheld
turn more than the one below it; so as many turns are restored as there are views.  Where
the revision is a view, of whose bytes no others have the digest, that view is the head. -/
theorem inspectRevisionChain_sound (read : String → Except TranscriptArtifactError B)
    (meetingId : Uuid) (digest : String) :
    (∃ rounds ≤ maxTranscriptViewDepth + 1, WalkEnds read meetingId ⟨digest, [], 0⟩ rounds
      (walkRevisions read meetingId maxTranscriptViewDepth digest [] 0)) ∧
    ∀ x baseBytes, inspectRevisionChain read meetingId digest = .ok (x, baseBytes) →
      x.digest = digest ∧ (∃ views, AcceptedChain read meetingId x baseBytes views) ∧
      ∀ view : TranscriptView, digestPretty B view = digest →
        (∀ bytes, read digest = .ok bytes →
          Platform.sha256 bytes = Platform.sha256 (toVecPretty view : B) → bytes = toVecPretty view) →
        x.headView = some view := by
  refine ⟨walkRevisions_ends read meetingId ⟨digest, [], 0⟩ (Nat.zero_add _), ?_⟩
  intro x baseBytes h
  obtain ⟨hdigest, views, hchain⟩ := acceptedChain_of_inspect h
  refine ⟨hdigest, ⟨views, hchain⟩, fun view hview hcollision => ?_⟩
  have hlinked := hchain.linked
  rw [hdigest] at hlinked
  have hsame : ∀ {bytes node}, readRevisionNode read meetingId digest = .ok (bytes, node) →
      (bytes, node) = (toVecPretty view, .inl view) := by
    intro bytes node hnode
    obtain ⟨hread, hsha⟩ := readRevisionNode_read hnode
    have hbytes := hcollision bytes hread (hsha.trans hview.symm)
    rw [hbytes] at hread
    exact readRevisionNode_of_view hread hnode
  cases hlinked with
  | base =>
    have hbase := hsame hchain.base
    cases hbase
  | view hnode hrest =>
    rw [hchain.head]
    cases hsame hnode
    rfl

/-- A view over a base: the chain is accepted, and the view is its head. -/
theorem inspectRevisionChain_sound_sample :
    ∃ x baseBytes, inspectRevisionChain (B := SampleBytes) (fun digest =>
        if digest = sampleViewSha256 then .ok (toVecPretty sampleView)
        else .ok (Document.compact sampleBaseTranscript)) sampleMeetingId sampleViewSha256 =
          .ok (x, baseBytes) ∧
      x.headView = some sampleView := by
  have hok : (inspectRevisionChain (B := SampleBytes) (fun digest =>
      if digest = sampleViewSha256 then .ok (toVecPretty sampleView)
      else .ok (Document.compact sampleBaseTranscript)) sampleMeetingId
        sampleViewSha256).toOption.isSome = true := by
    decide +kernel
  cases hresult : inspectRevisionChain (B := SampleBytes) (fun digest =>
      if digest = sampleViewSha256 then .ok (toVecPretty sampleView)
      else .ok (Document.compact sampleBaseTranscript)) sampleMeetingId sampleViewSha256 with
  | error e =>
    rw [hresult] at hok
    cases hok
  | ok found =>
    obtain ⟨x, baseBytes⟩ := found
    obtain ⟨-, ⟨views, hchain⟩, hhead⟩ :=
      (inspectRevisionChain_sound _ _ _).2 x baseBytes hresult
    refine ⟨x, baseBytes, rfl, hhead sampleView (by decide +kernel) ?_⟩
    intro bytes hread _
    rw [if_pos rfl] at hread
    exact (Except.ok.inj hread).symm

end Sound

end YawnApp.SessionCore
