import Mathlib.Data.Finset.Basic
import Mathlib.Data.Finset.Card
import YawnApp.SessionCore.MeetingFiles
import YawnApp.SessionCore.Operations

set_option autoImplicit false

/-!
# Transcript revisions (`transcript_restoration.rs`, the chain walk)

A transcript revision is a file `transcript/<digest>.json`.  A base revision is
what the transcriber wrote, with some turns withheld; a view names its parent
and the turns it shows.  `inspect_revision_chain` walks from a revision through
its parents to the base and checks that every view adds exactly one withheld
turn to the one below it.

The walk reads revisions through a function given to it.  Digests are checked
here whatever the function returns.
-/

namespace YawnApp.SessionCore

open YawnApp.Foundation

/-! ## Results -/

def maxTranscriptRevisionBytes : Nat := 16 * 1024 * 1024

def maxTranscriptTurns : Nat := 20000

def maxTranscriptViewDepth : Nat := 20000

def maxTranscriptViewChainBytes : Nat := 4 * 1024 * 1024

inductive TranscriptArtifactError where
  | missing
  | changed
  | malformed
  | cyclic
  | tooDeep
  | nonWithheld
  | notOneTurnSuccessor
deriving DecidableEq, Repr

structure InspectedTranscriptRevision where
  digest : String
  baseTranscriptSha256 : String
  headView : Option TranscriptView
  restoredSourceTurnIndices : List UInt32
  withheldSourceTurnIndices : Finset UInt32
deriving DecidableEq

/-- The path of a revision below the meeting directory. -/
def revisionPath (digest : String) : String := "transcript/" ++ digest ++ ".json"

/-- `validate_digest` of this module. -/
def validateRevisionDigest (value : String) : Except TranscriptArtifactError Unit :=
  refuseIf (¬ validSha256 value) .malformed

/-! ## Base transcripts -/

/-- A field that is there and is not `null`. -/
def gateFieldPresent (turn : Value) (name : String) : Bool :=
  match turn.get name with
  | some v => !v.isNull
  | none => false

/-- One turn of a base transcript; the answer is whether it is withheld.  Times
are exact rationals. -/
def inspectTurn (turn : Value) : Except TranscriptArtifactError Bool := do
  refuseIf (¬ turn.isObject) .malformed
  let start ← orRefuse ((turn.get "start").bind Value.asNumber) .malformed
  let «end» ← orRefuse ((turn.get "end").bind Value.asNumber) .malformed
  let text ← orRefuse ((turn.get "text").bind Value.asStr) .malformed
  let gated ←
    match turn.get "gated" with
    | some (.bool value) => pure value
    | some _ => .error .malformed
    | none => pure false
  refuseIf (start < 0 ∨ «end» < start ∨ text.utf8ByteSize > 100000 ∨
      ((gateFieldPresent turn "gate_score" ∨ gateFieldPresent turn "gate_reason") ∧ ¬ gated))
    .malformed
  return gated

/-- The loop over the turns from index `index` on. -/
def inspectTurns : Nat → List Value → Except TranscriptArtifactError (Finset UInt32)
  | _, [] => .ok ∅
  | index, turn :: rest => do
    let gated ← inspectTurn turn
    let withheld ← inspectTurns (index + 1) rest
    return if gated then insert (UInt32.ofNat index) withheld else withheld

def inspectBaseTranscript (document : Value) : Except TranscriptArtifactError (Finset UInt32) := do
  refuseIf (¬ document.isObject) .malformed
  refuseIf ((document.get "schema").bind Value.asStr ≠ some "capture-transcript/1" ∨
      ((document.get "source").bind Value.asStr).isNone ∨
      (document.get "attribution").bind Value.asStr ∉ [some "named", some "channel", some "none"] ∨
      ¬ (document.get "capture_health").any Value.isObject)
    .malformed
  let turns ← orRefuse ((document.get "turns").bind Value.asArray) .malformed
  refuseIf (turns.length > maxTranscriptTurns) .malformed
  inspectTurns 0 turns

/-! ## The walk -/

section Walk

variable {B : Type} [Platform B] [DecidableEq B] {current : String}

/-- What the walk knows when it reaches the base: the views it passed, the head
first, the base's digest and withheld turns, and the base's bytes. -/
structure WalkedChain (B : Type) where
  views : List (String × TranscriptView)
  baseDigest : String
  withheld : Finset UInt32
  baseBytes : B

/-- One revision read and classified: a view, or the base. -/
def readRevisionNode (read : String → Except TranscriptArtifactError B) (meetingId : Uuid)
    (current : String) :
    Except TranscriptArtifactError (B × (TranscriptView ⊕ Finset UInt32)) := do
  let bytes ← read current
  refuseIf (Platform.sha256 bytes ≠ current) .changed
  let document ← orRefuse (valueFromSlice bytes) .malformed
  if (document.get "schema").bind Value.asStr = some "transcript-view/1" then
    let view ← orRefuse (Serde.fromValue document : Option TranscriptView) .malformed
    view.validate.mapError fun _ => .malformed
    refuseIf (view.meetingId ≠ meetingId ∨ toVecPretty view ≠ bytes) .malformed
    return (bytes, .inl view)
  else
    let withheld ← inspectBaseTranscript document
    return (bytes, .inr withheld)

/-- The loop of `inspect_revision_chain`.  The first argument is how many views
may still be passed; `views` are those passed already, the last one first. -/
def walkRevisions (read : String → Except TranscriptArtifactError B) (meetingId : Uuid) :
    Nat → String → List (String × TranscriptView) → Nat →
      Except TranscriptArtifactError (WalkedChain B)
  | 0, current, views, _ =>
    .error (if current ∈ views.map Prod.fst then .cyclic else .tooDeep)
  | remaining + 1, current, views, viewBytesTotal => do
    refuseIf (current ∈ views.map Prod.fst) .cyclic
    match ← readRevisionNode read meetingId current with
    | (bytes, .inl view) =>
      refuseIf (viewBytesTotal + ByteString.size bytes > maxTranscriptViewChainBytes) .tooDeep
      walkRevisions read meetingId remaining view.parentTranscriptSha256
        ((current, view) :: views) (viewBytesTotal + ByteString.size bytes)
    | (bytes, .inr withheld) =>
      return { views := views.reverse, baseDigest := current, withheld, baseBytes := bytes }

/-- The second loop, from the view next to the base upwards: each view adds one
withheld turn to the one before it. -/
def checkSuccessors (baseDigest : String) (withheld : Finset UInt32) :
    List (String × TranscriptView) → String → List UInt32 →
      Except TranscriptArtifactError (List UInt32)
  | [], _, restored => .ok restored
  | (digest, view) :: rest, previousDigest, restored => do
    refuseIf (view.baseTranscriptSha256 ≠ baseDigest ∨
        view.parentTranscriptSha256 ≠ previousDigest) .malformed
    let previous := restored.toFinset
    let next := view.restoredSourceTurnIndices.toFinset
    refuseIf (¬ next ⊆ withheld) .nonWithheld
    refuseIf (¬ previous ⊆ next ∨ next.card ≠ previous.card + 1) .notOneTurnSuccessor
    checkSuccessors baseDigest withheld rest digest view.restoredSourceTurnIndices

/-- `inspect_revision_chain`. -/
def inspectRevisionChain (read : String → Except TranscriptArtifactError B) (meetingId : Uuid)
    (transcriptSha256 : String) :
    Except TranscriptArtifactError (InspectedTranscriptRevision × B) := do
  validateRevisionDigest transcriptSha256
  let chain ← walkRevisions read meetingId maxTranscriptViewDepth transcriptSha256 [] 0
  let restored ← checkSuccessors chain.baseDigest chain.withheld chain.views.reverse
    chain.baseDigest []
  return ({
    digest := transcriptSha256
    baseTranscriptSha256 := chain.baseDigest
    headView := chain.views.head?.map Prod.snd
    restoredSourceTurnIndices := restored
    withheldSourceTurnIndices := chain.withheld }, chain.baseBytes)

/-! ## Revisions stored in a meeting -/

/-- `read_revision`. -/
def readRevision (read : Reader B) (digest : String) : Except TranscriptArtifactError B := do
  validateRevisionDigest digest
  let bytes ← (readBounded read (revisionPath digest) maxTranscriptRevisionBytes).mapError
    fun | .io .notFound => .missing | _ => .changed
  refuseIf (Platform.sha256 bytes ≠ digest) .changed
  return bytes

/-- `inspect_stored_revision`, the inspector the app uses. -/
def inspectRevision (read : Reader B) (meetingId : Uuid) (transcriptSha256 : String) :
    Except TranscriptArtifactError InspectedTranscriptRevision :=
  (inspectRevisionChain (readRevision read) meetingId transcriptSha256).map Prod.fst

/-! ## What an accepted chain says -/

variable {read : String → Except TranscriptArtifactError B} {bytes : B}
  {x : InspectedTranscriptRevision}

theorem readRevisionNode_eq_view {meetingId : Uuid} {view : TranscriptView}
    (h : readRevisionNode read meetingId current = .ok (bytes, .inl view)) :
    read current = .ok bytes ∧ Platform.sha256 bytes = current ∧ view.validate = .ok () ∧
      view.meetingId = meetingId ∧ bytes = toVecPretty view := by
  unfold readRevisionNode at h
  simp only [bind_eq_ok] at h
  obtain ⟨found, hread, _, hdigest, document, -, hnode⟩ := h
  split at hnode
  · simp only [bind_eq_ok] at hnode
    obtain ⟨found', -, _, hvalid, _, hmatches, heq⟩ := hnode
    cases heq
    simp only [mapError_eq_ok] at hvalid
    simp only [refuseIf_eq_ok, not_or, not_not] at hmatches hdigest
    exact ⟨hread, hdigest, hvalid, hmatches.1, hmatches.2.symm⟩
  · simp only [bind_eq_ok] at hnode
    obtain ⟨withheld, -, heq⟩ := hnode
    cases heq

theorem readRevisionNode_read {meetingId : Uuid} {node : TranscriptView ⊕ Finset UInt32}
    (h : readRevisionNode read meetingId current = .ok (bytes, node)) :
    read current = .ok bytes ∧ Platform.sha256 bytes = current := by
  unfold readRevisionNode at h
  simp only [bind_eq_ok] at h
  obtain ⟨found, hread, _, hdigest, document, -, hnode⟩ := h
  rw [refuseIf_eq_ok, not_not] at hdigest
  split at hnode
  · simp only [bind_eq_ok] at hnode
    obtain ⟨found', -, -, -, -, -, heq⟩ := hnode
    cases heq
    exact ⟨hread, hdigest⟩
  · simp only [bind_eq_ok] at hnode
    obtain ⟨withheld, -, heq⟩ := hnode
    cases heq
    exact ⟨hread, hdigest⟩

/-- The views a walk returns start with those it was given. -/
theorem walkRevisions_views {meetingId : Uuid} :
    ∀ {remaining : Nat} {current : String} {views : List (String × TranscriptView)} {total : Nat}
      {chain : WalkedChain B},
      walkRevisions read meetingId remaining current views total = .ok chain →
      ∃ rest, chain.views = views.reverse ++ rest := by
  intro remaining
  induction remaining with
  | zero =>
    intro current views total chain h
    unfold walkRevisions at h
    cases h
  | succ remaining ih =>
    intro current views total chain h
    unfold walkRevisions at h
    simp only [bind_eq_ok] at h
    obtain ⟨-, -, ⟨bytes, node⟩, -, hrest⟩ := h
    cases node with
    | inl view =>
      simp only [bind_eq_ok] at hrest
      obtain ⟨-, -, hwalk⟩ := hrest
      obtain ⟨rest, hviews⟩ := ih hwalk
      exact ⟨(current, view) :: rest, by rw [hviews]; simp⟩
    | inr =>
      cases hrest
      exact ⟨[], by simp⟩

/-- The base a walk ends at is a base. -/
theorem walkRevisions_base {meetingId : Uuid} :
    ∀ {remaining : Nat} {current : String} {views : List (String × TranscriptView)} {total : Nat}
      {chain : WalkedChain B},
      walkRevisions read meetingId remaining current views total = .ok chain →
      readRevisionNode read meetingId chain.baseDigest = .ok (chain.baseBytes, .inr chain.withheld) := by
  intro remaining
  induction remaining with
  | zero =>
    intro current views total chain h
    unfold walkRevisions at h
    cases h
  | succ remaining ih =>
    intro current views total chain h
    unfold walkRevisions at h
    simp only [bind_eq_ok] at h
    obtain ⟨-, -, ⟨bytes, node⟩, hnode, hrest⟩ := h
    cases node with
    | inl =>
      simp only [bind_eq_ok] at hrest
      obtain ⟨-, -, hwalk⟩ := hrest
      exact ih hwalk
    | inr =>
      cases hrest
      exact hnode

/-- Passing one view: the walk goes on at its parent, which is another revision. -/
theorem walkRevisions_head {meetingId : Uuid} {remaining total : Nat} {chain : WalkedChain B}
    {view : TranscriptView}
    (h : walkRevisions read meetingId remaining current [] total = .ok chain)
    (hhead : chain.views.head?.map Prod.snd = some view) :
    (∃ bytes, readRevisionNode read meetingId current = .ok (bytes, .inl view)) ∧
      view.parentTranscriptSha256 ≠ current ∧ ∃ rest, chain.views = (current, view) :: rest := by
  cases remaining with
  | zero =>
    unfold walkRevisions at h
    cases h
  | succ remaining =>
    unfold walkRevisions at h
    simp only [bind_eq_ok] at h
    obtain ⟨-, -, ⟨bytes, node⟩, hnode, hrest⟩ := h
    cases node with
    | inr =>
      cases hrest
      simp at hhead
    | inl found =>
      simp only [bind_eq_ok] at hrest
      obtain ⟨-, -, hwalk⟩ := hrest
      obtain ⟨rest, hviews⟩ := walkRevisions_views hwalk
      have hfound : found = view := by
        rw [hviews] at hhead
        simpa using hhead
      subst hfound
      refine ⟨⟨bytes, hnode⟩, ?_, rest, by rw [hviews]; simp⟩
      -- the next round refuses a parent that was passed already
      cases remaining with
      | zero =>
        unfold walkRevisions at hwalk
        cases hwalk
      | succ =>
        unfold walkRevisions at hwalk
        simp only [bind_eq_ok] at hwalk
        obtain ⟨_, hfresh, -⟩ := hwalk
        simpa using hfresh

omit [Platform B] [DecidableEq B] in
/-- The last view checked shows what the chain shows, and only withheld turns. -/
theorem checkSuccessors_last {baseDigest : String} {withheld : Finset UInt32}
    {digest : String} {view : TranscriptView} :
    ∀ {below : List (String × TranscriptView)} {previousDigest : String}
      {restored shown : List UInt32},
      checkSuccessors baseDigest withheld (below ++ [(digest, view)]) previousDigest restored =
        .ok shown →
      shown = view.restoredSourceTurnIndices ∧
        view.restoredSourceTurnIndices.toFinset ⊆ withheld ∧
        view.baseTranscriptSha256 = baseDigest := by
  intro below
  induction below with
  | nil =>
    intro previousDigest restored shown h
    simp only [List.nil_append, checkSuccessors, bind_eq_ok, refuseIf_eq_ok] at h
    obtain ⟨_, hbase, _, hsubset, _, -, heq⟩ := h
    cases heq
    exact ⟨rfl, not_not.mp hsubset, not_not.mp (not_or.mp hbase).1⟩
  | cons entry below ih =>
    intro previousDigest restored shown h
    obtain ⟨other, first⟩ := entry
    simp only [List.cons_append, checkSuccessors, bind_eq_ok, refuseIf_eq_ok] at h
    obtain ⟨-, -, -, -, -, -, hrest⟩ := h
    exact ih hrest

/-- What an accepted revision is known to be. -/
structure InspectedTranscriptRevision.Sound (read : Reader B) (meetingId : Uuid)
    (x : InspectedTranscriptRevision) : Prop where
  stored : ∃ bytes, readRevision read x.digest = .ok bytes
  base : ∃ bytes, readRevisionNode (readRevision read) meetingId x.baseTranscriptSha256 =
    .ok (bytes, .inr x.withheldSourceTurnIndices)
  restoredOfBase : x.headView = none → x.restoredSourceTurnIndices = []
  view : ∀ view, x.headView = some view →
    view.validate = .ok () ∧ view.meetingId = meetingId ∧
      x.digest = digestPretty B view ∧
      view.parentTranscriptSha256 ≠ x.digest ∧
      view.baseTranscriptSha256 = x.baseTranscriptSha256 ∧
      x.restoredSourceTurnIndices = view.restoredSourceTurnIndices ∧
      view.restoredSourceTurnIndices.toFinset ⊆ x.withheldSourceTurnIndices

theorem inspectRevision_digest {read : Reader B} {meetingId : Uuid} {transcriptSha256 : String}
    (h : inspectRevision read meetingId transcriptSha256 = .ok x) :
    x.digest = transcriptSha256 := by
  unfold inspectRevision inspectRevisionChain at h
  simp only [map_eq_ok, bind_eq_ok] at h
  obtain ⟨⟨y, bytes⟩, ⟨_, -, chain, -, restored, -, heq⟩, rfl⟩ := h
  cases heq
  rfl

theorem walkRevisions_read {meetingId : Uuid} {remaining total : Nat}
    {views : List (String × TranscriptView)} {chain : WalkedChain B}
    (h : walkRevisions read meetingId remaining current views total = .ok chain) :
    ∃ bytes, read current = .ok bytes := by
  cases remaining with
  | zero =>
    unfold walkRevisions at h
    cases h
  | succ =>
    unfold walkRevisions at h
    simp only [bind_eq_ok] at h
    obtain ⟨_, -, ⟨bytes, node⟩, hnode, -⟩ := h
    exact ⟨bytes, (readRevisionNode_read hnode).1⟩

/-- The chain walk accepts only what `Sound` says. -/
theorem inspectRevision_sound {read : Reader B} {meetingId : Uuid} {transcriptSha256 : String}
    (h : inspectRevision read meetingId transcriptSha256 = .ok x) : x.Sound read meetingId := by
  unfold inspectRevision inspectRevisionChain at h
  simp only [map_eq_ok, bind_eq_ok] at h
  obtain ⟨⟨y, bytes⟩, ⟨_, -, chain, hwalk, restored, hcheck, heq⟩, rfl⟩ := h
  cases heq
  refine ⟨walkRevisions_read hwalk, ⟨_, walkRevisions_base hwalk⟩, fun hhead => ?_, fun view hview => ?_⟩
  · have hviews : chain.views = [] := by simpa using hhead
    rw [hviews] at hcheck
    simp only [List.reverse_nil, checkSuccessors, Except.ok.injEq] at hcheck
    exact hcheck.symm
  · obtain ⟨⟨read, hnode⟩, hparent, rest, hviews⟩ := walkRevisions_head hwalk hview
    obtain ⟨-, hdigest, hvalid, hmeeting, hbytes⟩ := readRevisionNode_eq_view hnode
    rw [hviews, List.reverse_cons] at hcheck
    obtain ⟨hshown, hsubset, hbase⟩ := checkSuccessors_last hcheck
    refine ⟨hvalid, hmeeting, ?_, hparent, hbase, hshown, hsubset⟩
    rw [digestPretty, ← hbytes]
    exact hdigest.symm

/-! ### Files that are added change no answer -/

section Added

variable {read read' : String → Except TranscriptArtifactError B} {meetingId : Uuid}

theorem readRevisionNode_mono (hread : ∀ digest bytes, read digest = .ok bytes →
    read' digest = .ok bytes) {current : String} {node : B × (TranscriptView ⊕ Finset UInt32)}
    (h : readRevisionNode read meetingId current = .ok node) :
    readRevisionNode read' meetingId current = .ok node := by
  unfold readRevisionNode at h ⊢
  rw [bind_eq_ok] at h ⊢
  obtain ⟨bytes, hbytes, hrest⟩ := h
  exact ⟨bytes, hread current bytes hbytes, hrest⟩

theorem walkRevisions_mono (hread : ∀ digest bytes, read digest = .ok bytes →
    read' digest = .ok bytes) :
    ∀ {remaining : Nat} {current : String} {views : List (String × TranscriptView)} {total : Nat}
      {chain : WalkedChain B},
      walkRevisions read meetingId remaining current views total = .ok chain →
      walkRevisions read' meetingId remaining current views total = .ok chain := by
  intro remaining
  induction remaining with
  | zero =>
    intro current views total chain h
    unfold walkRevisions at h
    cases h
  | succ remaining ih =>
    intro current views total chain h
    unfold walkRevisions at h ⊢
    simp only [bind_eq_ok] at h ⊢
    obtain ⟨u, hfresh, ⟨bytes, node⟩, hnode, hrest⟩ := h
    refine ⟨u, hfresh, ⟨bytes, node⟩, readRevisionNode_mono hread hnode, ?_⟩
    cases node with
    | inl =>
      simp only [bind_eq_ok] at hrest ⊢
      obtain ⟨w, hbounded, hwalk⟩ := hrest
      exact ⟨w, hbounded, ih hwalk⟩
    | inr => exact hrest

theorem inspectRevisionChain_mono (hread : ∀ digest bytes, read digest = .ok bytes →
    read' digest = .ok bytes) {digest : String} {x : InspectedTranscriptRevision × B}
    (h : inspectRevisionChain read meetingId digest = .ok x) :
    inspectRevisionChain read' meetingId digest = .ok x := by
  unfold inspectRevisionChain at h ⊢
  rw [bind_eq_ok] at h ⊢
  obtain ⟨u, hdigest, hrest⟩ := h
  rw [bind_eq_ok] at hrest
  obtain ⟨chain, hwalk, hcheck⟩ := hrest
  refine ⟨u, hdigest, ?_⟩
  rw [bind_eq_ok]
  exact ⟨chain, walkRevisions_mono hread hwalk, hcheck⟩

theorem inspectRevision_mono {read read' : Reader B} (hread : ∀ digest bytes,
    validSha256 digest = true → read (revisionPath digest) = .ok bytes →
      read' (revisionPath digest) = .ok bytes)
    {digest : String} {x : InspectedTranscriptRevision}
    (h : inspectRevision read meetingId digest = .ok x) :
    inspectRevision read' meetingId digest = .ok x := by
  have hrevision : ∀ digest bytes, readRevision read digest = .ok bytes →
      readRevision read' digest = .ok bytes := by
    intro digest bytes h
    unfold readRevision readBounded at h ⊢
    simp only [bind_eq_ok, mapError_eq_ok] at h ⊢
    obtain ⟨u, hdigest, found, ⟨found', hfound, hrest⟩, hsame⟩ := h
    have hvalid : validSha256 digest = true := not_not.mp (refuseIf_eq_ok.mp hdigest)
    exact ⟨u, hdigest, found, ⟨found', hread _ _ hvalid hfound, hrest⟩, hsame⟩
  unfold inspectRevision at h ⊢
  rw [map_eq_ok] at h ⊢
  obtain ⟨y, hy, heq⟩ := h
  exact ⟨y, inspectRevisionChain_mono hrevision hy, heq⟩

end Added

/-! ### How many turns a chain can show -/

omit [Platform B] [DecidableEq B] in
theorem inspectTurns_bounded : ∀ {turns : List Value} {index : Nat} {withheld : Finset UInt32},
    inspectTurns index turns = .ok withheld →
    withheld.card ≤ turns.length ∧
      ∀ i ∈ withheld, ∃ n < index + turns.length, i = UInt32.ofNat n := by
  intro turns
  induction turns with
  | nil =>
    intro index withheld h
    cases h
    exact ⟨by simp, by simp⟩
  | cons turn rest ih =>
    intro index withheld h
    simp only [inspectTurns, bind_eq_ok] at h
    obtain ⟨gated, -, above, habove, heq⟩ := h
    obtain ⟨hcard, hindices⟩ := ih habove
    have hkeep : ∀ i ∈ above, ∃ n < index + (turn :: rest).length, i = UInt32.ofNat n := by
      intro i hi
      obtain ⟨n, hn, rfl⟩ := hindices i hi
      exact ⟨n, by rw [List.length_cons]; omega, rfl⟩
    cases heq
    rw [List.length_cons]
    cases gated with
    | false => exact ⟨by simpa using Nat.le_succ_of_le hcard, by simpa using hkeep⟩
    | true =>
      refine ⟨(Finset.card_insert_le _ _).trans (Nat.succ_le_succ hcard), fun i hi => ?_⟩
      rcases Finset.mem_insert.mp hi with rfl | hi
      · exact ⟨index, by omega, rfl⟩
      · exact hkeep i hi

/-- A base has at most `maxTranscriptTurns` withheld turns. -/
theorem readRevisionNode_base_bounded {meetingId : Uuid} {withheld : Finset UInt32}
    (h : readRevisionNode read meetingId current = .ok (bytes, .inr withheld)) :
    withheld.card ≤ maxTranscriptTurns ∧ ∀ i ∈ withheld, i.toNat < maxTranscriptTurns := by
  unfold readRevisionNode at h
  simp only [bind_eq_ok] at h
  obtain ⟨found, -, _, -, document, -, hnode⟩ := h
  split at hnode
  · simp only [bind_eq_ok] at hnode
    obtain ⟨_, -, _, -, _, -, heq⟩ := hnode
    cases heq
  · simp only [bind_eq_ok] at hnode
    obtain ⟨found', hbase, heq⟩ := hnode
    cases heq
    unfold inspectBaseTranscript at hbase
    simp only [bind_eq_ok] at hbase
    obtain ⟨_, -, _, -, turns, -, _, hlength, hturns⟩ := hbase
    rw [refuseIf_eq_ok, Nat.not_lt] at hlength
    obtain ⟨hcard, hindices⟩ := inspectTurns_bounded hturns
    refine ⟨hcard.trans hlength, fun i hi => ?_⟩
    obtain ⟨n, hn, rfl⟩ := hindices i hi
    rw [Nat.zero_add] at hn
    have hsmall : n < UInt32.size := hn.trans_le (hlength.trans (by decide))
    rw [UInt32.toNat_ofNat_of_lt' hsmall]
    exact hn.trans_le hlength

theorem strictlyIncreasing_pairwise : ∀ {indices : List UInt32},
    strictlyIncreasing indices = true → indices.Pairwise (· < ·)
  | [], _ => .nil
  | [_], _ => List.pairwise_singleton _ _
  | a :: b :: rest, h => by
    rw [strictlyIncreasing, Bool.and_eq_true, decide_eq_true_eq] at h
    have hrest := strictlyIncreasing_pairwise h.2
    refine List.pairwise_cons.mpr ⟨fun c hc => ?_, hrest⟩
    rcases List.mem_cons.mp hc with rfl | hc
    · exact h.1
    · exact UInt32.lt_trans h.1 (List.rel_of_pairwise_cons hrest hc)

theorem strictlyIncreasing_nodup {indices : List UInt32} (h : strictlyIncreasing indices = true) :
    indices.Nodup :=
  (strictlyIncreasing_pairwise h).imp fun hab heq => by
    subst heq
    exact UInt32.lt_irrefl _ hab

/-- The turns an accepted revision shows are few and their indices small. -/
theorem InspectedTranscriptRevision.Sound.bounded {read : Reader B} {meetingId : Uuid}
    (h : x.Sound read meetingId) : x.restoredSourceTurnIndices.length ≤ maxTranscriptTurns ∧
      ∀ i ∈ x.restoredSourceTurnIndices, i.toNat < maxTranscriptTurns := by
  obtain ⟨bytes, hbase⟩ := h.base
  obtain ⟨hcard, hindices⟩ := readRevisionNode_base_bounded hbase
  cases hhead : x.headView with
  | none =>
    rw [h.restoredOfBase hhead]
    exact ⟨Nat.zero_le _, by simp⟩
  | some view =>
    obtain ⟨hvalid, -, -, -, -, hshown, hsubset⟩ := h.view view hhead
    have hsorted : strictlyIncreasing view.restoredSourceTurnIndices = true := by
      unfold TranscriptView.validate at hvalid
      simp only [bind_eq_ok, refuseIf_eq_ok, not_or] at hvalid
      obtain ⟨_, -, _, -, -, hsorted⟩ := hvalid
      simpa using hsorted
    rw [hshown]
    refine ⟨?_, fun i hi => hindices i (hsubset (List.mem_toFinset.mpr hi))⟩
    rw [← List.toFinset_card_of_nodup (strictlyIncreasing_nodup hsorted)]
    exact (Finset.card_le_card hsubset).trans hcard

end Walk

end YawnApp.SessionCore
