import YawnApp.Notes.CandidateFirst
import YawnApp.Notes.FragmentMap

set_option autoImplicit false

/-!
# Candidate manifests (`candidate_first.py`)

Local code enumerates the candidates that a classifier is asked about, and anybody who has
the transcript can derive them again.  The two expressions that find cues are taken from
`re`.
-/

namespace YawnApp.Notes

open YawnApp.Foundation

/-! ## Contracts -/

def strategyBroad : String := "broad"
def strategyCue : String := "cue"
def strategies : List String := [strategyBroad, strategyCue]

def manifestSchema : String := "candidate-manifest/1"
def generatorContractSchema : String := "candidate-generator/1"

/-- `_CUE_PATTERNS` -/
def cuePatterns : List (String × String) := [
  ("decision",
    "\\b(?:decid(?:e|ed|ing)|agree(?:d|ment)?|settled|go with|choose|chosen|final(?:ly)?|conclusion)\\b"),
  ("action",
    "\\b(?:(?:i|we|you|they|he|she)\\s+(?:will|shall|plan to|need to|have to|must|commit to)|action item|to-?do|follow-?up|next step|send|prepare|deliver|check|look into|investigate|schedule|assign)\\b"),
  ("proposal",
    "\\b(?:maybe|perhaps|could|should|let'?s|how about|what if|why don'?t|suggest(?:ion|ed|ing)?|recommend(?:ed|ation)?|propos(?:e|ed|al)|prefer|idea|option)\\b"),
  ("question", "\\?|\\b(?:question|not sure|don'?t know|whether)\\b"),
  ("request", "\\b(?:call upon|urge|request|please)\\b")]

/-- The pattern of `_ASSENT_RE`. -/
def assentPattern : String :=
  "^(?:yes|yeah|yep|okay|ok|right|agreed|exactly|sure|sounds good|that works|i agree)[.!?]?$"

/-- `GENERATOR_CONTRACT` with the width that models see around an anchor. -/
def contractOf (visibleContext : String) (visibleWindow : List (String × Value)) :
    List (String × Value) := [
  ("schema", .string generatorContractSchema),
  ("broad", .string "one candidate per canonical source fragment"),
  ("cue", .string "one candidate per non-overlapping cue hit plus bounded assent links"),
  ("cue_patterns", .array (cuePatterns.map fun cue =>
    .object [("family", .string cue.1), ("pattern", .string cue.2)])),
  ("assent_pattern", .string assentPattern),
  ("assent_max_words", .natural 8),
  ("visible_context", .string visibleContext),
  ("anchor_required", .bool true),
  ("source_text_retained", .bool false),
  ("candidate_order", .string "anchor fragment order, then cue character order")] ++ visibleWindow

/-- `GENERATOR_CONTRACT` -/
def generatorContract : List (String × Value) :=
  contractOf "previous canonical fragment, anchor, next canonical fragment" []

/-- `PRODUCT_CONTRACT` -/
def productContract : List (String × Value) :=
  contractOf "two previous canonical fragments, anchor, two next canonical fragments"
    [("visible_window", .natural 2)]

/-- `contract.get("visible_window", 1)`, if it is 1 or 2; `True` is 1. -/
def visibleWindow (contract : List (String × Value)) : Option Nat :=
  match Value.get (.object contract) "visible_window" with
  | none => some 1
  | some (.natural n) => if 1 ≤ n ∧ n ≤ 2 then some n else none
  | some (.bool true) => some 1
  | some _ => none

/-- `_CUE_RE.finditer` with the family, the start and the end of each match, and
`_ASSENT_RE.fullmatch`. -/
class CuePatterns where
  cueMatches : List Char → List (String × Nat × Nat)
  assents : List Char → Bool

/-! ## Candidates -/

section Candidates

variable [Digests]

/-- `_json_sha256` -/
def jsonSha256 (value : Value) : String := Digests.sha256 (Digests.dumps value ++ ['\n'])

/-- What a candidate is named after. -/
def descriptor (strategy viewDigest anchorFragmentId : String) (cueType : Option String)
    (cueStart cueEnd : Option Nat) : Value :=
  .object [("schema", .string generatorContractSchema), ("strategy", .string strategy),
    ("transcript_view_sha256", .string viewDigest),
    ("anchor_fragment_id", .string anchorFragmentId),
    ("cue_type", cueType.elim .null .string), ("cue_start", cueStart.elim .null .natural),
    ("cue_end", cueEnd.elim .null .natural)]

/-- `_candidate_id` -/
def candidateId (descriptor : Value) : String := "cf-" ++ jsonSha256 descriptor

/-- `_visible_fragment_ids` -/
def visibleFragmentIds (fragments : List Fragment) (anchorIndex window : Nat) : List String :=
  let start := anchorIndex - window
  let stop := min fragments.length (anchorIndex + window + 1)
  ((fragments.take stop).drop start).map Fragment.sourceFragmentId

/-- `_candidate`; there is none if there is no such fragment. -/
def candidate (fragmentMap : FragmentMap) (strategy : String) (ordinal anchorIndex : Nat)
    (cueType : Option String) (cueStart cueEnd : Option Nat) (window : Nat) : Option Candidate := do
  let anchor ← fragmentMap.fragments[anchorIndex]?
  return {
    candidateId := candidateId (descriptor strategy fragmentMap.transcriptViewSha256
      anchor.sourceFragmentId cueType cueStart cueEnd)
    ordinal
    anchorFragmentId := anchor.sourceFragmentId
    anchorTurn := anchor.turn
    anchorCharStart := anchor.charStart
    anchorCharEnd := anchor.charEnd
    cueType
    cueStart := cueStart.map Int.ofNat
    cueEnd := cueEnd.map Int.ofNat
    visibleFragmentIds := visibleFragmentIds fragmentMap.fragments anchorIndex window }

/-- `_broad_candidates` -/
def broadCandidates (fragmentMap : FragmentMap) (window : Nat) : List Candidate :=
  (List.range fragmentMap.fragments.length).filterMap fun anchorIndex =>
    candidate fragmentMap strategyBroad (anchorIndex + 1) anchorIndex none none none window

/-! ### Cues -/

/-- `max` by the start: of equal ones the first. -/
def rightmost : List Fragment → Option Fragment
  | [] => none
  | first :: rest => some (rest.foldl
      (fun best row => if best.charStart < row.charStart then row else best) first)

/-- `_fragment_for_offset` -/
def fragmentForOffset (turnFragments : List Fragment) (offset : Nat) : Option Fragment :=
  let containing := turnFragments.filter fun row => row.charStart ≤ offset && offset < row.charEnd
  let preceding := turnFragments.filter fun row => row.charStart ≤ offset
  rightmost containing <|> rightmost preceding <|> turnFragments.head?

/-- The place of an anchor, the family of its cue, and where the cue is. -/
structure CueRow where
  anchorIndex : Nat
  cueType : String
  cueStart : Nat
  cueEnd : Nat
deriving DecidableEq, Repr

/-- The order of the key `(row[0], row[2], row[3], row[1])`. -/
def CueRow.le (a b : CueRow) : Prop :=
  a.anchorIndex < b.anchorIndex ∨ (a.anchorIndex = b.anchorIndex ∧ (a.cueStart < b.cueStart ∨
    (a.cueStart = b.cueStart ∧ (a.cueEnd < b.cueEnd ∨
      (a.cueEnd = b.cueEnd ∧ a.cueType ≤ b.cueType)))))

instance (a b : CueRow) : Decidable (a.le b) := inferInstanceAs (Decidable (_ ∨ _))

variable [CuePatterns]

/-- The fragments of a turn. -/
def byTurn (fragments : List Fragment) (turn : Nat) : List Fragment :=
  fragments.filter fun fragment => fragment.turn == turn

/-- `fragment_indices[anchor["source_fragment_id"]]` -/
def indexOf (fragments : List Fragment) (anchor : Fragment) : Option Nat :=
  fragments.findIdx? fun row => row.sourceFragmentId == anchor.sourceFragmentId

/-- A turn with fragments in which a cue was found. -/
def isCueTurn (transcript : Transcript) (fragments : List Fragment) (turn : Nat) : Bool :=
  !(byTurn fragments turn).isEmpty &&
    transcript.turns[turn]?.any fun row => !(CuePatterns.cueMatches row.text).isEmpty

/-- The cues of a turn. -/
def cueRows (fragments : List Fragment) (row : Turn × Nat) : List CueRow :=
  let turnFragments := byTurn fragments row.2
  if turnFragments.isEmpty then []
  else (CuePatterns.cueMatches row.1.text).filterMap fun found => do
    let anchor ← fragmentForOffset turnFragments found.2.1
    return ⟨← indexOf fragments anchor, found.1, found.2.1, found.2.2⟩

/-- `str.strip` -/
def strip (text : List Char) : List Char :=
  ((text.dropWhile isSpace).reverse.dropWhile isSpace).reverse

/-- A turn without a cue that assents to one with a cue. -/
def assentRow (transcript : Transcript) (fragments : List Fragment) (row : Turn × Nat) :
    Option CueRow :=
  if row.2 = 0 ∨ isCueTurn transcript fragments row.2 = true then none
  else if (words isSpace row.1.text).length > 8 ∨ CuePatterns.assents (strip row.1.text) = false then
    none
  else if isCueTurn transcript fragments (row.2 - 1) = false then none
  else do
    let anchor ← (byTurn fragments row.2).head?
    return ⟨← indexOf fragments anchor, "assent-link", 0, row.1.text.length⟩

/-- `_cue_candidates` -/
def cueCandidates (transcript : Transcript) (fragmentMap : FragmentMap) : List Candidate :=
  let fragments := fragmentMap.fragments
  let rows := transcript.turns.zipIdx.flatMap (cueRows fragments) ++
    transcript.turns.zipIdx.filterMap (assentRow transcript fragments)
  (rows.insertionSort CueRow.le).zipIdx.filterMap fun row =>
    candidate fragmentMap strategyCue (row.2 + 1) row.1.anchorIndex (some row.1.cueType)
      (some row.1.cueStart) (some row.1.cueEnd) 1

end Candidates

/-! ## Manifests -/

structure Manifest where
  schema : String
  strategy : String
  source : String
  attribution : String
  transcriptViewSha256 : String
  fragmentContractSha256 : String
  generatorContract : List (String × Value)
  generatorContractSha256 : String
  turns : Nat
  sourceFragments : Nat
  candidateCount : Nat
  candidates : List Candidate
  manifestSha256 : String

def integer (n : ℤ) : Value :=
  match n with
  | .ofNat n => .natural n
  | .negSucc n => .decimal (Int.negSucc n)

def Candidate.toValue (row : Candidate) : Value :=
  .object [("candidate_id", .string row.candidateId), ("ordinal", integer row.ordinal),
    ("anchor_fragment_id", .string row.anchorFragmentId), ("anchor_turn", integer row.anchorTurn),
    ("anchor_char_start", integer row.anchorCharStart),
    ("anchor_char_end", integer row.anchorCharEnd), ("cue_type", row.cueType.elim .null .string),
    ("cue_start", row.cueStart.elim .null integer), ("cue_end", row.cueEnd.elim .null integer),
    ("visible_fragment_ids", .array (row.visibleFragmentIds.map .string))]

namespace Manifest

/-- The manifest without its digest. -/
def base (m : Manifest) : List (String × Value) :=
  [("schema", .string m.schema), ("strategy", .string m.strategy), ("source", .string m.source),
    ("attribution", .string m.attribution),
    ("transcript_view_sha256", .string m.transcriptViewSha256),
    ("fragment_contract_sha256", .string m.fragmentContractSha256),
    ("generator_contract", .object m.generatorContract),
    ("generator_contract_sha256", .string m.generatorContractSha256),
    ("counts", .object [("turns", .natural m.turns),
      ("source_fragments", .natural m.sourceFragments), ("candidates", .natural m.candidateCount)]),
    ("candidates", .array (m.candidates.map Candidate.toValue))]

def toValue (m : Manifest) : Value :=
  .object (m.base ++ [("manifest_sha256", .string m.manifestSha256)])

end Manifest

section Generate

variable [Digests] [CuePatterns]

/-- `generate_manifest` -/
def generateManifest (transcript : Transcript) (strategy : String)
    (contract : Option (List (String × Value))) : Except StructuredOutputError Manifest := do
  refuseIf (strategy ∉ strategies) ⟨"candidate strategy must be one of broad, cue"⟩
  let contract := contract.getD generatorContract
  let window ← orRefuse (visibleWindow contract)
    ⟨"generator contract visible window is invalid"⟩
  refuseIf (window ≠ 1 ∧ strategy ≠ strategyBroad)
    ⟨"a widened visible window is defined for the broad strategy only"⟩
  let fragmentMap := buildFragmentMap transcript
  let candidates := if strategy = strategyBroad then broadCandidates fragmentMap window
    else cueCandidates transcript fragmentMap
  let manifest : Manifest := {
    schema := manifestSchema
    strategy
    source := transcript.source
    attribution := transcript.attribution.name
    transcriptViewSha256 := fragmentMap.transcriptViewSha256
    fragmentContractSha256 := fragmentMap.fragmentContractSha256
    generatorContract := contract
    generatorContractSha256 := jsonSha256 (.object contract)
    turns := transcript.turns.length
    sourceFragments := fragmentMap.fragments.length
    candidateCount := candidates.length
    candidates
    manifestSha256 := "" }
  return { manifest with manifestSha256 := jsonSha256 (.object manifest.base) }

/-- `lookup[fragment_id]` -/
def lookup (fragments : List Fragment) (id : String) : Option Fragment :=
  fragments.find? fun row => row.sourceFragmentId == id

/-- The loop over what a candidate shows. -/
def resolveAll (transcript : Transcript) (fragmentMap : FragmentMap) :
    List String → Except StructuredOutputError Unit
  | [] => .ok ()
  | id :: rest => do
    let fragment ← orRefuse (lookup fragmentMap.fragments id)
      ⟨"source fragment is not in the map"⟩
    let _ ← resolveFragment fragment transcript fragmentMap.transcriptViewSha256
    resolveAll transcript fragmentMap rest

/-- The loop of `validate_manifest` over the candidates. -/
def checkReferences (transcript : Transcript) (fragmentMap : FragmentMap) (window : Nat) :
    List Candidate → Except StructuredOutputError Unit
  | [] => .ok ()
  | row :: rest => do
    let visible := row.visibleFragmentIds
    refuseIf ((lookup fragmentMap.fragments row.anchorFragmentId).isNone = true ∨
        ¬ (1 ≤ visible.length ∧ visible.length ≤ 2 * window + 1) ∨
        row.anchorFragmentId ∉ visible ∨ ¬ visible.Nodup ∨
        visible.any (fun id => (lookup fragmentMap.fragments id).isNone) = true)
      ⟨"candidate " ++ row.candidateId ++ " has invalid evidence references"⟩
    resolveAll transcript fragmentMap visible
    checkReferences transcript fragmentMap window rest

/-- `validate_manifest` of an object with the right keys. -/
def validateManifest (manifest : Manifest) (transcript : Transcript) :
    Except StructuredOutputError Manifest := do
  refuseIf (manifest.schema ≠ manifestSchema) ⟨"candidate manifest schema is not current"⟩
  refuseIf (manifest.strategy ∉ strategies) ⟨"candidate manifest strategy is invalid"⟩
  refuseIf (manifest.manifestSha256 ≠ jsonSha256 (.object manifest.base))
    ⟨"candidate manifest digest does not re-derive"⟩
  refuseIf (manifest.generatorContractSha256 ≠ jsonSha256 (.object manifest.generatorContract))
    ⟨"candidate manifest generator contract does not match its digest"⟩
  let expected ← generateManifest transcript manifest.strategy (some manifest.generatorContract)
  refuseIf (Digests.dumps manifest.toValue ++ ['\n'] ≠ Digests.dumps expected.toValue ++ ['\n'])
    ⟨"candidate manifest does not re-derive from the transcript"⟩
  let window ← orRefuse (visibleWindow manifest.generatorContract)
    ⟨"generator contract visible window is invalid"⟩
  refuseIf (¬ (manifest.candidates.map Candidate.candidateId).Nodup)
    ⟨"candidate manifest has duplicate IDs"⟩
  refuseIf (manifest.candidates.map Candidate.ordinal ≠
      (List.range manifest.candidates.length).map fun n : Nat => (n : ℤ) + 1)
    ⟨"candidate manifest order is not contiguous"⟩
  checkReferences transcript (buildFragmentMap transcript) window manifest.candidates
  return manifest

end Generate

/-! ## The offer -/

/-- `PRODUCT_RUN["classifier"]["offer_stride"]` -/
def registeredOfferStride : ℤ := 2

/-- `PRODUCT_RUN["classifier"]["batch_size"]` -/
def registeredBatchSize : ℤ := 1

/-- `offered_candidates` -/
def offeredCandidates (candidates : List Candidate) (stride : ℤ) :
    Except StructuredOutputError (List Candidate) := do
  refuseIf (stride ≤ 0) ⟨"offer stride must be a positive integer"⟩
  return (candidates.zipIdx.filter fun row => row.2 % stride.toNat == 0).map Prod.fst

/-- `candidate_batches` -/
def candidateBatches (candidates : List Candidate) (batchSize : ℤ) :
    Except StructuredOutputError (List (List Candidate)) := do
  refuseIf (batchSize ≤ 0) ⟨"candidate batch size must be a positive integer"⟩
  let size := batchSize.toNat
  return (List.range ((candidates.length + size - 1) / size)).map fun k =>
    (candidates.drop (k * size)).take size

end YawnApp.Notes
