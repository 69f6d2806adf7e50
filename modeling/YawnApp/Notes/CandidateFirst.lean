import Mathlib.Data.List.Sort
import Mathlib.Data.String.Basic
import YawnApp.Foundation.Refusal

set_option autoImplicit false

/-!
# Pruning the kept candidates (`candidate_first.py`)

A classifier keeps candidates of a manifest; too many of them are collapsed into as many
as the budget admits.  Kept candidates that stand close together form a run, and of a run
one candidate is taken for each stride of turns.
-/

namespace YawnApp.Notes

open YawnApp.Foundation

/-- A row of a candidate manifest. -/
structure Candidate where
  candidateId : String
  ordinal : ℤ
  anchorFragmentId : String
  anchorTurn : ℤ
  anchorCharStart : ℤ
  anchorCharEnd : ℤ
  cueType : Option String
  cueStart : Option ℤ
  cueEnd : Option ℤ
  visibleFragmentIds : List String
deriving DecidableEq, Repr

/-- A row of decisions; `keys` are the keys of the dictionary. -/
structure Decision where
  keys : List String
  candidateId : String
  verdict : String
deriving DecidableEq, Repr

/-- What `prune_keeps` raises. -/
inductive PruneError where
  | structuredOutput (message : String)
  | value (message : String)
deriving DecidableEq, Repr

/-! ## Decisions -/

/-- `by_id.get`: of two rows of one id the later one counts. -/
def byId (candidates : List Candidate) (id : String) : Option Candidate :=
  candidates.reverse.find? fun row => row.candidateId == id

/-- A decision that cannot be read. -/
def Decision.invalid (candidates : List Candidate) (row : Decision) : Bool :=
  !(row.keys.all fun key => key ∈ ["candidate_id", "verdict"]) ||
    !(["candidate_id", "verdict"].all fun key => key ∈ row.keys) ||
    !(row.verdict ∈ ["KEEP", "ABSTAIN"]) || (byId candidates row.candidateId).isNone

/-- The loop of `prune_keeps` over the decisions; `verdicts` are those read so far. -/
def readVerdicts (candidates : List Candidate) :
    List (String × String) → List Decision → Except PruneError (List (String × String))
  | verdicts, [] => .ok verdicts
  | verdicts, row :: rest => do
    refuseIf (row.invalid candidates = true)
      (.structuredOutput "pruner received an invalid decision row")
    refuseIf (row.candidateId ∈ verdicts.map Prod.fst)
      (.structuredOutput "pruner received a duplicated decision")
    readVerdicts candidates (verdicts ++ [(row.candidateId, row.verdict)]) rest

/-- The candidates that are kept, by their ordinals. -/
def keptOf (candidates : List Candidate) (verdicts : List (String × String)) : List Candidate :=
  ((verdicts.filter fun verdict => verdict.2 == "KEEP").filterMap fun verdict =>
    byId candidates verdict.1).insertionSort fun a b => a.ordinal ≤ b.ordinal

/-! ## Runs and segments -/

/-- The loop of `runs_at`: a row is added to the last run or opens one. -/
def runsFrom (gap : ℤ) : List (List Candidate) → List Candidate → List (List Candidate)
  | runs, [] => runs
  | runs, row :: rest =>
    let near := (runs.getLast?.bind List.getLast?).any fun last =>
      row.anchorTurn - last.anchorTurn ≤ gap
    if near then runsFrom gap (runs.dropLast ++ [runs.getLastD [] ++ [row]]) rest
    else runsFrom gap (runs ++ [[row]]) rest

/-- `runs_at` -/
def runsAt (gap : ℤ) (kept : List Candidate) : List (List Candidate) := runsFrom gap [] kept

def Candidate.anchorLength (row : Candidate) : ℤ := row.anchorCharEnd - row.anchorCharStart

/-- `max` by the length of the anchor: of equal ones the first. -/
def longestAnchor : List Candidate → Except PruneError Candidate
  | [] => .error (.value "max() iterable argument is empty")
  | first :: rest => .ok (rest.foldl
      (fun best row => if row.anchorLength > best.anchorLength then row else best) first)

/-- The loop of `collapse` over the rows of a run. -/
def collapseRun (stride : ℤ) : List Candidate → ℤ → List Candidate →
    Except PruneError (List Candidate)
  | segment, _, [] => if segment = [] then .ok [] else do return [← longestAnchor segment]
  | segment, segmentStart, row :: rest =>
    if row.anchorTurn - segmentStart ≥ stride then do
      let survivor ← longestAnchor segment
      let survivors ← collapseRun stride [row] row.anchorTurn rest
      return survivor :: survivors
    else collapseRun stride (segment ++ [row]) segmentStart rest

/-- `collapse` -/
def collapse (stride : ℤ) : List (List Candidate) → Except PruneError (List Candidate)
  | [] => .ok []
  | run :: runs => do
    let first ← orRefuse run.head? (.value "list index out of range")
    let survivors ← collapseRun stride [] first.anchorTurn run
    let others ← collapse stride runs
    return survivors ++ others

/-- The turns from the first anchor of a run to its last. -/
def runSpan (run : List Candidate) : ℤ :=
  run.getLast?.elim 0 Candidate.anchorTurn - run.head?.elim 0 Candidate.anchorTurn

/-! ## The two searches -/

/-- The inner loop: strides from one that may be too small. -/
def fitStride (budget : ℤ) (runs : List (List Candidate)) (longestSpan stride : ℤ) :
    Except PruneError (ℤ × List Candidate) := do
  let survivors ← collapse stride runs
  if survivors.length ≤ budget then return (stride, survivors)
  else if stride > longestSpan then
    .error (.structuredOutput "pruner stride exhausted without fitting the budget")
  else fitStride budget runs longestSpan (stride + 1)
termination_by (longestSpan + 1 - stride).toNat
decreasing_by omega

/-- What the searches choose. -/
structure Fitted where
  gap : ℤ
  stride : ℤ
  survivors : List Candidate

/-- The outer loop, over gaps from small to large. -/
def fitGap (budget strideFloor : ℤ) (kept : List Candidate) :
    List ℤ → Except PruneError (Option Fitted)
  | [] => .ok none
  | gap :: gaps =>
    let runs := runsAt gap kept
    if runs.length > budget then fitGap budget strideFloor kept gaps
    else do
      let longestSpan ← orRefuse (runs.map runSpan).max? (.value "max() iterable argument is empty")
      let (stride, survivors) ← fitStride budget runs longestSpan strideFloor
      return some ⟨gap, stride, survivors⟩

/-- `range(1, max_gap + 1)` -/
def gapsTo (maxGap : ℤ) : List ℤ := (List.range maxGap.toNat).map fun n : Nat => (n : ℤ) + 1

/-- What `prune_keeps` returns. -/
structure Pruned where
  decisions : Nat
  keep : Nat
  runs : Nat
  prunedKeep : Nat
  fittedGap : Option ℤ
  fittedStride : Option ℤ
  prunedCandidateIds : List String
deriving DecidableEq, Repr

/-- `prune_keeps` after the decisions. -/
def pruneKept (decisions : Nat) (kept : List Candidate) (budget strideFloor maxGap : ℤ) :
    Except PruneError Pruned := do
  let fitted ← if kept = [] then .ok none else fitGap budget strideFloor kept (gapsTo maxGap)
  let pruned ← match fitted with
    | some fit => .ok fit.survivors
    | none => if kept = [] then .ok [] else collapse strideFloor (runsAt maxGap kept)
  return {
    decisions
    keep := kept.length
    runs := match fitted with
      | some fit => (runsAt fit.gap kept).length
      | none => if kept = [] then 0 else (runsAt maxGap kept).length
    prunedKeep := pruned.length
    fittedGap := fitted.map Fitted.gap
    fittedStride := fitted.map Fitted.stride
    prunedCandidateIds := pruned.map Candidate.candidateId }

/-- `prune_keeps` -/
def pruneKeeps (candidates : List Candidate) (decisions : List Decision)
    (budget strideFloor maxGap : ℤ) : Except PruneError Pruned := do
  let verdicts ← readVerdicts candidates [] decisions
  refuseIf (¬ ((∀ row ∈ candidates, row.candidateId ∈ verdicts.map Prod.fst) ∧
      ∀ id ∈ verdicts.map Prod.fst, id ∈ candidates.map Candidate.candidateId))
    (.structuredOutput "pruner requires exactly one decision per candidate")
  pruneKept verdicts.length (keptOf candidates verdicts) budget strideFloor maxGap

end YawnApp.Notes
