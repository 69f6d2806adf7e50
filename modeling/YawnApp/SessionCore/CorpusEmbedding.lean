import YawnApp.SessionCore.CorpusIndex

set_option autoImplicit false

/-!
# Filling the index with vectors (`corpus_embedding.rs`)

A pass asks an embedder for the vectors of windows that have none, a batch at a time and no
more than its budget, and stores what it is answered.  The embedder is anything: what it
answers may differ from call to call.
-/

namespace YawnApp.SessionCore

open YawnApp.Foundation

namespace CorpusIndex

/-! ## Windows without a vector -/

/-- `PendingWindow` -/
structure PendingWindow where
  meetingId : String
  windowIndex : Nat
  textSha256 : String
  text : String
deriving DecidableEq

/-- `ORDER BY meeting_id ASC, window_index ASC` -/
def windowOrder (a b : WindowRow) : Prop :=
  a.meetingId < b.meetingId ∨ (a.meetingId = b.meetingId ∧ a.windowIndex ≤ b.windowIndex)

instance (a b : WindowRow) : Decidable (windowOrder a b) := inferInstanceAs (Decidable (_ ∨ _))

/-- The window has a vector of this embedder for its text. -/
def isEmbedded (vectors : List VectorRow) (embedder : String) (window : WindowRow) : Bool :=
  vectors.any fun vector => vector.meetingId == window.meetingId &&
    vector.windowIndex == window.windowIndex && vector.embedder == embedder &&
    vector.textSha256 == window.textSha256

/-- The rows that `pending_windows` selects without its limit. -/
def pendingRows (index : Index) (identity : EmbedderIdentity) : List WindowRow :=
  (index.tables.window.insertionSort windowOrder).filter fun window =>
    !isEmbedded index.vectors identity.canonical window

/-- `window_provenance` -/
def windowProvenance (tables : Tables) (row : WindowRow) :
    Except CorpusIndexError CorpusWindow.Window :=
  let found := (tables.segment.filter fun segment => segment.meetingId == row.meetingId &&
    segment.windowIndex == row.windowIndex).insertionSort fun a b => a.segmentIndex ≤ b.segmentIndex
  let segments : List CorpusWindow.WindowSegment := found.map fun segment =>
    ⟨segment.sourceTurnIndex, segment.originalScalarStart, segment.originalScalarEnd⟩
  if segments = [] then .error .underivableRow else .ok ⟨row.windowIndex, row.wordCount, segments⟩

/-- `SELECT text FROM turn` -/
def storedTurn (tables : Tables) (meetingId : String) (turnIndex : Nat) : Option String :=
  (tables.turn.find? fun turn => turn.meetingId == meetingId && turn.turnIndex == turnIndex).map
    TurnRow.text

/-- `window_text`: every turn of a segment is looked up first. -/
def storedText (tables : Tables) (meetingId : String) (window : CorpusWindow.Window) :
    Except CorpusIndexError String := do
  refuseIf (∃ segment ∈ window.segments, storedTurn tables meetingId segment.sourceTurnIndex = none)
    .underivableRow
  orRefuse (CorpusWindow.windowText window (storedTurn tables meetingId)) .underivableRow

section Pending

variable [TextDigest]

/-- The round of the loop of `pending_windows`. -/
def derivePending (tables : Tables) (row : WindowRow) : Except CorpusIndexError PendingWindow := do
  let window ← windowProvenance tables row
  let text ← storedText tables row.meetingId window
  refuseIf (CorpusWindow.windowDigest text ≠ row.textSha256) .underivableRow
  return ⟨row.meetingId, row.windowIndex, row.textSha256, text⟩

/-- `pending_windows`; no limit is 0. -/
def pendingWindows (index : Index) (identity : EmbedderIdentity) (limit : Nat) :
    Except CorpusIndexError (List PendingWindow) :=
  let rows := pendingRows index identity
  (if limit = 0 then rows else rows.take limit).mapM (derivePending index.tables)

end Pending

/-! ## A pass -/

def windowsPerRequest : Nat := 24

/-- `FillStop` -/
inductive FillStop where
  | complete
  | budgetReached
  | embedderUnavailable (reason : String)
  | replyIncomplete
  | modelMismatch
deriving DecidableEq, Repr

def tokenizerModelId : String := "all-minilm-l6-v2-tokenizer"
def weightsModelId : String := "all-minilm-l6-v2-weights"

/-- `matches_manifest` -/
def EmbedderIdentity.matchesManifest (identity : EmbedderIdentity)
    (models : List (String × String)) : Bool :=
  let digest := fun id : String => (models.find? fun model => model.1 == id).map Prod.snd
  digest tokenizerModelId == some identity.tokenizerSha256 &&
    digest weightsModelId == some identity.weightsSha256

/-- `WindowEmbedder`: what the call of a number is answered, by digests. -/
abbrev Embedder : Type :=
  Nat → List PendingWindow → Except String (String → Option (List UInt32))

/-- The variables of `fill_vectors`, and the batches it has asked for. -/
structure Pass where
  index : Index
  requested : Nat
  embedded : Nat
  batches : Nat
  asked : List (List PendingWindow)

def Pass.start (index : Index) : Pass := ⟨index, 0, 0, 0, []⟩

/-- The vectors of a batch, if the reply has one for each window. -/
def offerOf (replies : String → Option (List UInt32)) (pending : List PendingWindow) :
    Option (List WindowVector) :=
  pending.mapM fun window => (replies window.textSha256).map fun values =>
    ⟨window.meetingId, window.windowIndex, window.textSha256, values⟩

/-- What a turn of the loop comes to. -/
inductive Round where
  | next (pass : Pass)
  | stop (pass : Pass) (result : Except CorpusIndexError FillStop)

section Fill

variable [TextDigest] (identity : EmbedderIdentity) (embedder : Embedder) (budget : Nat)

/-- The body of the loop of `fill_vectors`. -/
def fillRound (pass : Pass) : Round :=
  let room := min (budget - pass.requested) windowsPerRequest
  match pendingWindows pass.index identity room with
  | .error e => .stop pass (.error e)
  | .ok pending =>
    if pending = [] then .stop pass (.ok .complete)
    else
      let asking : Pass := { pass with
        requested := pass.requested + pending.length
        batches := pass.batches + 1
        asked := pass.asked ++ [pending] }
      match embedder pass.batches pending with
      | .error reason => .stop asking (.ok (.embedderUnavailable reason))
      | .ok replies =>
        match offerOf replies pending with
        | none => .stop asking (.ok .replyIncomplete)
        | some vectors =>
          let stored := (storeWindowVectors identity vectors).exec pass.index
          match stored.result with
          | .error e => .stop asking (.error e)
          | .ok written => .next { asking with
              index := stored.final pass.index
              embedded := pass.embedded + written }

variable {identity embedder budget}

theorem requested_lt_of_next {pass later : Pass}
    (h : fillRound identity embedder budget pass = .next later) : pass.requested < later.requested := by
  unfold fillRound at h
  simp only [] at h
  split at h
  · cases h
  · split at h
    · cases h
    · rename_i pending _ hne
      split at h
      · cases h
      · split at h
        · cases h
        · split at h
          · cases h
          · cases h
            exact Nat.lt_add_of_pos_right (List.length_pos_of_ne_nil hne)

variable (identity embedder budget)

/-- The loop of `fill_vectors`. -/
def fillFrom (pass : Pass) : Pass × Except CorpusIndexError FillStop :=
  if pass.requested < budget then
    match _h : fillRound identity embedder budget pass with
    | .stop last result => (last, result)
    | .next later => fillFrom later
  else (pass, .ok .budgetReached)
termination_by budget - pass.requested
decreasing_by
  have := requested_lt_of_next ‹fillRound _ _ _ pass = .next later›
  omega

/-- `fill_vectors` -/
def fillVectors (models : List (String × String)) (index : Index) :
    Pass × Except CorpusIndexError FillStop :=
  if identity.matchesManifest models = false then (.start index, .ok .modelMismatch)
  else if budget = 0 then (.start index, .ok .budgetReached)
  else fillFrom identity embedder budget (.start index)

end Fill

end CorpusIndex

end YawnApp.SessionCore
