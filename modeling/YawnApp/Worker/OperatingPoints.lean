import Mathlib.Data.List.Dedup
import Mathlib.Tactic.Linarith
import Mathlib.Tactic.NormNum
import YawnApp.Foundation.OrderStatistics
import YawnApp.Foundation.Refusal

set_option autoImplicit false

/-!
# The operating points that may be offered (`speaker_gate.py`)

A threshold is an order statistic of the operator's scores.  Its two costs are the part of
the operator's scores below it and the part of the others' scores that reach it.  Of the
targets that the sample can resolve, those that measure the same costs are one choice.

Scores, targets and seconds are exact numbers here.
-/

namespace YawnApp.Worker

open YawnApp.Foundation List

namespace SpeakerGate

/-! ## Refusals -/

inductive Number where
  | finite (value : ℚ)
  | notFinite
deriving DecidableEq

/-- A text with what is put in for its braces; `None` is a number that is left out. -/
structure Message where
  text : String
  values : List (Option Number)
deriving DecidableEq

inductive Raised where
  | valueError (message : Message)
  | systemExit (message : Message)
  | zeroDivision
deriving DecidableEq

/-- `_finite`; a bound may be left out. -/
def finite (name : String) (value : Number) (lo hi : Option ℚ) : Except Raised ℚ :=
  match value with
  | .notFinite => .error (.systemExit ⟨name ++ " is \x7b\x7d, which is not a finite number. Every "
      ++ "comparison against it would be False, so the gate would silently reject all judgeable "
      ++ "speech and keep only what it cannot judge.", [some value]⟩)
  | .finite v => do
    refuseIf ((∃ l ∈ lo, v < l) ∨ ∃ h ∈ hi, h < v)
      (.systemExit ⟨name ++ " is \x7b\x7d, outside the valid range [\x7b\x7d, \x7b\x7d]",
        [some value, lo.map .finite, hi.map .finite]⟩)
    return v

/-! ## Calibration -/

def minEnrollSegments : Nat := 3

/-- What `calibrate` returns. -/
structure Point where
  threshold : ℚ
  targetFrr : ℚ
  measuredFrr : ℚ
  nOperator : Nat
  falseAdmitRate : Option ℚ
  nOther : Nat
deriving DecidableEq

/-- `np.quantile(scores, target, method="higher")` -/
def quantile (scores : List ℚ) (target : ℚ) : ℚ :=
  orderStatistic scores ⌈target * (scores.length - 1 : ℚ)⌉.toNat 0

/-- The part of the scores strictly below the threshold. -/
def rejectRate (scores : List ℚ) (threshold : ℚ) : ℚ := fraction (fun score => score < threshold) scores

/-- The part of the scores at or above the threshold. -/
def admitRate (scores : List ℚ) (threshold : ℚ) : ℚ :=
  fraction (fun score => threshold ≤ score) scores

/-- `calibrate` -/
def calibrate (operatorScores : List ℚ) (targetFrr : ℚ) (otherScores : Option (List ℚ)) :
    Except Raised Point := do
  refuseIf (¬ (0 < targetFrr ∧ targetFrr < 1)) (.valueError
    ⟨"target_frr must lie strictly between 0 and 1, got \x7b\x7d", [some (.finite targetFrr)]⟩)
  refuseIf (operatorScores.length < minEnrollSegments) (.valueError
    ⟨"too few operator scores to take a quantile: \x7b\x7d", [some (.finite operatorScores.length)]⟩)
  let threshold := quantile operatorScores targetFrr
  let other := otherScores.getD []
  return {
    threshold
    targetFrr
    measuredFrr := rejectRate operatorScores threshold
    nOperator := operatorScores.length
    falseAdmitRate := if other = [] then none else some (admitRate other threshold)
    nOther := other.length }

/-! ## Choices -/

def minNegativeScorableSeconds : ℚ := 60

def minNegativeScorableSegments : Nat := 20

def operatingPointTargets : List ℚ := [1 / 100, 2 / 100, 5 / 100, 10 / 100, 20 / 100]

/-- `min_resolvable` -/
def minResolvable (targetFrr : ℚ) : Except Raised ℤ :=
  if targetFrr = 0 then .error .zeroDivision else .ok ⌈1 / targetFrr⌉

/-- The variables of the loop of `operating_point_choices`. -/
structure Offer where
  distinct : List Point
  seenCosts : List (ℚ × ℚ)

/-- The round of the loop for one target. -/
def offerTarget (operatorScores otherScores : List ℚ) (offer : Offer) (target : ℚ) :
    Except Raised Offer := do
  let floor ← minResolvable target
  if (operatorScores.length : ℤ) < floor then return offer
  else do
    let point ← calibrate operatorScores target (some otherScores)
    match point.falseAdmitRate with
    | none => return offer
    | some far =>
      let costs := (point.measuredFrr, far)
      if costs ∈ offer.seenCosts then return offer
      else return ⟨offer.distinct ++ [point], costs :: offer.seenCosts⟩

/-- The loosest, the strictest and the lower median between them. -/
def surfaced (distinct : List Point) : List Point :=
  if distinct.length ≤ 3 then distinct
  else distinct.head?.toList ++ distinct[(distinct.length - 1) / 2]?.toList ++
    distinct.getLast?.toList

/-- `operating_point_choices` -/
def operatingPointChoices (operatorScores otherScores : List ℚ) (negativeScorableSeconds : Number)
    (targets : List ℚ) : Except Raised (List Point) := do
  refuseIf (otherScores.length < minNegativeScorableSegments) (.valueError
    ⟨"operating-point choices need at least 20 negative-speaker segments so both costs are "
      ++ "observed at a meaningful resolution", []⟩)
  let seconds ← finite "negative_scorable_seconds" negativeScorableSeconds (some 0) none
  refuseIf (seconds < minNegativeScorableSeconds) (.valueError
    ⟨"operating-point choices need at least 60s of scorable negative speech, got \x7b\x7ds",
      [some (.finite seconds)]⟩)
  let offer ← (targets.dedup.insertionSort (· ≤ ·)).foldlM
    (offerTarget operatorScores otherScores) ⟨[], []⟩
  refuseIf (offer.distinct.length < 2) (.valueError
    ⟨"fewer than two distinct operating points are resolvable with both costs", []⟩)
  return surfaced offer.distinct

/-! ## One target -/

/-- The sample is large enough for the target. -/
def Resolvable (operatorScores : List ℚ) (target : ℚ) : Prop :=
  ⌈1 / target⌉ ≤ (operatorScores.length : ℤ)

instance (operatorScores : List ℚ) : DecidablePred (Resolvable operatorScores) :=
  fun _ => inferInstanceAs (Decidable (_ ≤ _))

/-- A target that three scores cannot resolve unless it is met by them. -/
structure Usable (target : ℚ) : Prop where
  positive : 0 < target
  third : 3 * target ≤ 1

/-- The point that is measured for a target. -/
def pointAt (operatorScores otherScores : List ℚ) (target : ℚ) : Point where
  threshold := quantile operatorScores target
  targetFrr := target
  measuredFrr := rejectRate operatorScores (quantile operatorScores target)
  nOperator := operatorScores.length
  falseAdmitRate := some (admitRate otherScores (quantile operatorScores target))
  nOther := otherScores.length

/-- Both costs of a point. -/
def Point.costs (point : Point) : ℚ × ℚ := (point.measuredFrr, point.falseAdmitRate.getD 0)

section Targets

variable {operatorScores otherScores : List ℚ} {target : ℚ}

theorem Resolvable.length (h : Resolvable operatorScores target) (htarget : Usable target) :
    minEnrollSegments ≤ operatorScores.length := by
  have hthree : (3 : ℚ) ≤ 1 / target := (le_div_iff₀ htarget.positive).mpr htarget.third
  have hceil : ((3 : ℤ) : ℚ) ≤ (⌈1 / target⌉ : ℤ) := hthree.trans (Int.le_ceil _)
  have hlength := (Int.cast_le.mp hceil).trans h
  unfold minEnrollSegments
  omega

theorem calibrate_eq (hlength : minEnrollSegments ≤ operatorScores.length)
    (htarget : Usable target) (hother : otherScores ≠ []) :
    calibrate operatorScores target (some otherScores) =
      .ok (pointAt operatorScores otherScores target) := by
  have hone : target < 1 := by linarith [htarget.positive, htarget.third]
  unfold calibrate
  rw [refuseIf_of_not (not_not.mpr ⟨htarget.positive, hone⟩), ok_bind,
    refuseIf_of_not (Nat.not_lt.mpr hlength), ok_bind]
  simp only [Option.getD_some, if_neg hother]
  rfl

/-- The rank of a threshold is that of a score. -/
theorem rank_lt (hscores : 0 < operatorScores.length) (htarget : target ≤ 1) :
    ⌈target * (operatorScores.length - 1 : ℚ)⌉.toNat < operatorScores.length := by
  have hcount : (1 : ℚ) ≤ operatorScores.length := by exact_mod_cast hscores
  have hceil : ⌈target * (operatorScores.length - 1 : ℚ)⌉ ≤ (operatorScores.length : ℤ) - 1 := by
    rw [Int.ceil_le]
    push_cast
    nlinarith
  omega

theorem quantile_mem (hscores : 0 < operatorScores.length) (htarget : target ≤ 1) :
    quantile operatorScores target ∈ operatorScores :=
  orderStatistic_mem (rank_lt hscores htarget) 0

theorem quantile_mono {stricter : ℚ} (hscores : 0 < operatorScores.length)
    (hle : target ≤ stricter) (htarget : stricter ≤ 1) :
    quantile operatorScores target ≤ quantile operatorScores stricter := by
  refine orderStatistic_mono (Int.toNat_le_toNat (Int.ceil_le_ceil ?_))
    (rank_lt hscores htarget) 0
  have hcount : (1 : ℚ) ≤ operatorScores.length := by exact_mod_cast hscores
  exact mul_le_mul_of_nonneg_right hle (by linarith)

theorem rejectRate_mono {low high : ℚ} (h : low ≤ high) :
    rejectRate operatorScores low ≤ rejectRate operatorScores high :=
  fraction_mono fun _ _ hscore => decide_eq_true ((of_decide_eq_true hscore).trans_le h)

theorem admitRate_anti {low high : ℚ} (h : low ≤ high) :
    admitRate otherScores high ≤ admitRate otherScores low :=
  fraction_mono fun _ _ hscore => decide_eq_true (h.trans (of_decide_eq_true hscore))

end Targets

/-! ## The loop -/

/-- The later point is the stricter one. -/
structure Stricter (looser stricter : Point) : Prop where
  target : looser.targetFrr < stricter.targetFrr
  threshold : looser.threshold ≤ stricter.threshold
  rejects : looser.measuredFrr ≤ stricter.measuredFrr
  admits : stricter.costs.2 ≤ looser.costs.2

/-- What is measured for the targets that can be resolved. -/
def measured (operatorScores otherScores targets : List ℚ) : List Point :=
  (targets.filter fun target => Resolvable operatorScores target).map
    (pointAt operatorScores otherScores)

section Loop

variable {operatorScores otherScores : List ℚ}

theorem offerTarget_eq {offer : Offer} {target : ℚ} (htarget : Usable target)
    (hother : otherScores ≠ []) :
    offerTarget operatorScores otherScores offer target = .ok
      (if Resolvable operatorScores target ∧
          (pointAt operatorScores otherScores target).costs ∉ offer.seenCosts
        then ⟨offer.distinct ++ [pointAt operatorScores otherScores target],
          (pointAt operatorScores otherScores target).costs :: offer.seenCosts⟩
        else offer) := by
  have hfloor : minResolvable target = .ok ⌈1 / target⌉ := if_neg htarget.positive.ne'
  unfold offerTarget
  rw [hfloor, ok_bind]
  by_cases hresolvable : Resolvable operatorScores target
  · rw [if_neg (not_lt.mpr hresolvable),
      calibrate_eq (hresolvable.length htarget) htarget hother, ok_bind]
    by_cases hseen : (pointAt operatorScores otherScores target).costs ∈ offer.seenCosts
    · rw [if_neg (fun h => h.2 hseen)]
      exact if_pos hseen
    · rw [if_pos ⟨hresolvable, hseen⟩]
      exact if_neg hseen
  · rw [if_pos (not_le.mp hresolvable), if_neg (fun h => hresolvable h.1)]
    rfl

/-- The loop keeps the first point of each pair of costs. -/
theorem foldlM_offerTarget (hother : otherScores ≠ []) :
    ∀ {targets : List ℚ} {offer : Offer}, (∀ target ∈ targets, Usable target) →
      ∃ seen, targets.foldlM (offerTarget operatorScores otherScores) offer = .ok
        ⟨offer.distinct ++ firstBy Point.costs offer.seenCosts
          (measured operatorScores otherScores targets), seen⟩ := by
  intro targets
  induction targets with
  | nil =>
    intro offer _
    refine ⟨offer.seenCosts, ?_⟩
    rw [measured, filter_nil, map_nil, firstBy, append_nil]
    rfl
  | cons target rest ih =>
    intro offer h
    rw [forall_mem_cons] at h
    rw [foldlM_cons, offerTarget_eq h.1 hother, ok_bind]
    by_cases hresolvable : Resolvable operatorScores target
    · have hmeasured : measured operatorScores otherScores (target :: rest) =
          pointAt operatorScores otherScores target ::
            measured operatorScores otherScores rest := by
        rw [measured, measured, filter_cons, if_pos (decide_eq_true hresolvable),
          map_cons]
      rw [hmeasured, firstBy]
      by_cases hseen : (pointAt operatorScores otherScores target).costs ∈ offer.seenCosts
      · rw [if_neg (fun h => h.2 hseen), if_pos hseen]
        exact ih h.2
      · rw [if_pos ⟨hresolvable, hseen⟩, if_neg hseen]
        obtain ⟨seen, hrest⟩ := @ih ⟨offer.distinct ++
          [pointAt operatorScores otherScores target],
          (pointAt operatorScores otherScores target).costs :: offer.seenCosts⟩ h.2
        refine ⟨seen, ?_⟩
        rw [hrest, append_assoc, singleton_append]
    · have hmeasured : measured operatorScores otherScores (target :: rest) =
          measured operatorScores otherScores rest := by
        rw [measured, measured, filter_cons,
          if_neg (fun h => hresolvable (of_decide_eq_true h))]
      rw [hmeasured, if_neg (fun h => hresolvable h.1)]
      exact ih h.2

theorem mem_measured {targets : List ℚ} {point : Point} :
    point ∈ measured operatorScores otherScores targets ↔ ∃ target ∈ targets,
      Resolvable operatorScores target ∧ pointAt operatorScores otherScores target = point := by
  unfold measured
  simp only [mem_map, mem_filter, decide_eq_true_eq, and_assoc]

/-- Points come in the order of their targets, each stricter than the one before. -/
theorem pairwise_measured {targets : List ℚ} (hsorted : targets.Pairwise (· < ·))
    (husable : ∀ target ∈ targets, Usable target) :
    (measured operatorScores otherScores targets).Pairwise Stricter := by
  unfold measured
  rw [pairwise_map, pairwise_filter]
  refine List.Pairwise.imp_of_mem ?_ hsorted
  intro looser stricter hlooser hstricter hlt hresolvable _
  have hlength := (of_decide_eq_true hresolvable : Resolvable _ _).length (husable looser hlooser)
  have husableStricter := husable stricter hstricter
  have hthreshold : quantile operatorScores looser ≤ quantile operatorScores stricter :=
    quantile_mono (lt_of_lt_of_le (by decide) hlength) hlt.le
    (by linarith [husableStricter.positive, husableStricter.third])
  exact ⟨hlt, hthreshold, rejectRate_mono hthreshold, admitRate_anti hthreshold⟩

end Loop

/-! ## What is surfaced -/

section Surfaced

variable {distinct : List Point}

/-- Two or three of the points, the first and the last among them. -/
theorem surfaced_ends (hlength : 2 ≤ distinct.length) :
    (surfaced distinct).Sublist distinct ∧
      ((surfaced distinct).length = 2 ∨ (surfaced distinct).length = 3) ∧
      (surfaced distinct).head? = distinct.head? ∧
      (surfaced distinct).getLast? = distinct.getLast? := by
  unfold surfaced
  split
  · exact ⟨List.Sublist.refl _, by omega, rfl, rfl⟩
  · rename_i hmany
    obtain ⟨first, rest, rfl⟩ := exists_cons_of_ne_nil
      (ne_nil_of_length_pos (by omega : 0 < distinct.length))
    rcases eq_nil_or_concat' rest with rfl | ⟨middle, last, rfl⟩
    · exact absurd hlength (by simp)
    · rw [length_cons, length_append, length_singleton] at hmany
      obtain ⟨rank, hrank, hlt⟩ : ∃ rank, (middle.length + 1 + 1 - 1) / 2 = rank + 1 ∧
          rank < middle.length := ⟨(middle.length + 1 + 1 - 1) / 2 - 1, by omega, by omega⟩
      have hmiddle : (first :: (middle ++ [last]))[(middle.length + 1 + 1 - 1) / 2]? =
          some middle[rank] := by
        rw [hrank, List.getElem?_cons_succ, List.getElem?_append_left hlt,
          List.getElem?_eq_getElem hlt]
      have hlast : (first :: (middle ++ [last])).getLast? = some last := by
        rw [← cons_append, List.getLast?_concat]
      rw [length_cons, length_append, length_singleton, hmiddle, hlast]
      refine ⟨?_, .inr rfl, rfl, rfl⟩
      apply List.Sublist.cons_cons first
      exact (singleton_sublist.mpr (getElem_mem hlt)).append (List.Sublist.refl [last])

end Surfaced

/-! ## The choices -/

/-- The points that are offered are measured, ordered and distinct. -/
structure Offered (operatorScores otherScores targets : List ℚ) (points : List Point) : Prop where
  count : points.length = 2 ∨ points.length = 3
  resolved : ∀ point ∈ points, point.targetFrr ∈ targets ∧
    ∃ floor, minResolvable point.targetFrr = .ok floor ∧ floor ≤ operatorScores.length
  threshold : ∀ point ∈ points, point.threshold ∈ operatorScores ∧
    point.threshold = quantile operatorScores point.targetFrr
  rejects : ∀ point ∈ points, point.measuredFrr =
    fraction (fun score => score < point.threshold) operatorScores
  admits : ∀ point ∈ points, point.falseAdmitRate =
    some (fraction (fun score => point.threshold ≤ score) otherScores)
  ordered : points.Pairwise Stricter
  distinct : points.Pairwise fun looser stricter => looser.costs ≠ stricter.costs
  /-- A point is the loosest of those that measure its costs. -/
  loosest : ∀ point ∈ points, ∀ target ∈ targets, Resolvable operatorScores target →
    (pointAt operatorScores otherScores target).costs = point.costs → point.targetFrr ≤ target
  first : ∀ point ∈ points.head?, ∀ target ∈ targets, Resolvable operatorScores target →
    point.targetFrr ≤ target
  /-- A target beyond the last point measures the costs of one up to it. -/
  last : ∀ point ∈ points.getLast?, ∀ target ∈ targets, Resolvable operatorScores target →
    point.targetFrr < target → ∃ looser ∈ targets, Resolvable operatorScores looser ∧
      looser ≤ point.targetFrr ∧ (pointAt operatorScores otherScores target).costs =
        (pointAt operatorScores otherScores looser).costs

section Choices

variable {operatorScores otherScores : List ℚ}

theorem offered_surfaced {targets : List ℚ} (hsorted : targets.Pairwise (· < ·))
    (husable : ∀ target ∈ targets, Usable target)
    (hlength : 2 ≤ (firstBy Point.costs [] (measured operatorScores otherScores targets)).length) :
    Offered operatorScores otherScores targets
      (surfaced (firstBy Point.costs [] (measured operatorScores otherScores targets))) := by
  obtain ⟨hsub, hcount, hhead, hlast⟩ := surfaced_ends hlength
  have hkept : (firstBy Point.costs [] (measured operatorScores otherScores targets)).Sublist
      (measured operatorScores otherScores targets) := firstBy_sublist _ []
  have hordered : (measured operatorScores otherScores targets).Pairwise Stricter :=
    pairwise_measured hsorted husable
  have hpoint : ∀ point ∈ surfaced (firstBy Point.costs []
      (measured operatorScores otherScores targets)), ∃ target ∈ targets,
        Resolvable operatorScores target ∧ pointAt operatorScores otherScores target = point :=
    fun point hmem => mem_measured.mp (hkept.subset (hsub.subset hmem))
  refine ⟨hcount, ?_, ?_, ?_, ?_, hordered.sublist (hsub.trans hkept),
    (pairwise_firstBy _ _).sublist hsub, ?_, ?_, ?_⟩
  · intro point hmem
    obtain ⟨target, htarget, hresolvable, rfl⟩ := hpoint point hmem
    exact ⟨htarget, _, if_neg (husable target htarget).positive.ne', hresolvable⟩
  · intro point hmem
    obtain ⟨target, htarget, hresolvable, rfl⟩ := hpoint point hmem
    have hscores := hresolvable.length (husable target htarget)
    have hthird := (husable target htarget).third
    have hpositive := (husable target htarget).positive
    exact ⟨quantile_mem (lt_of_lt_of_le (by decide) hscores) (by linarith), rfl⟩
  · intro point hmem
    obtain ⟨target, -, -, rfl⟩ := hpoint point hmem
    rfl
  · intro point hmem
    obtain ⟨target, -, -, rfl⟩ := hpoint point hmem
    rfl
  · intro point hmem target htarget hresolvable hcosts
    rcases firstBy_first hordered point (hsub.subset hmem) _
        (mem_measured.mpr ⟨target, htarget, hresolvable, rfl⟩) hcosts with heq | hstricter
    · rw [← heq]
      exact le_refl _
    · exact hstricter.target.le
  · intro point hpointHead target htarget hresolvable
    rw [hhead, head?_firstBy] at hpointHead
    have hmem : pointAt operatorScores otherScores target ∈
        measured operatorScores otherScores targets :=
      mem_measured.mpr ⟨target, htarget, hresolvable, rfl⟩
    cases hmeasured : measured operatorScores otherScores targets with
    | nil =>
      rw [hmeasured] at hmem
      exact absurd hmem not_mem_nil
    | cons =>
      rw [hmeasured] at hpointHead hmem hordered
      cases hpointHead
      rcases mem_cons.mp hmem with heq | hmem
      · rw [← heq]
        exact le_refl _
      · exact ((pairwise_cons.mp hordered).1 _ hmem).target.le
  · intro point hpointLast target htarget hresolvable _
    rw [hlast] at hpointLast
    obtain ⟨before, hbefore⟩ := List.getLast?_eq_some_iff.mp hpointLast
    rcases @exists_of_firstBy _ _ _ Point.costs _ [] _
        (mem_measured.mpr ⟨target, htarget, hresolvable, rfl⟩) with hseen | ⟨kept, hmem, hcosts⟩
    · exact absurd hseen not_mem_nil
    · obtain ⟨looser, hlooser, hresolvableLooser, rfl⟩ := mem_measured.mp (hkept.subset hmem)
      refine ⟨looser, hlooser, hresolvableLooser, ?_, hcosts.symm⟩
      have hends := hordered.sublist hkept
      rw [hbefore] at hends hmem
      rcases mem_append.mp hmem with hmem | hmem
      · exact ((pairwise_append.mp hends).2.2 _ hmem _ mem_cons_self).target.le
      · rw [← mem_singleton.mp hmem]
        exact le_refl _

theorem usable_targets : ∀ target ∈ operatingPointTargets, Usable target := by
  unfold operatingPointTargets
  simp only [forall_mem_cons]
  refine ⟨⟨?_, ?_⟩, ⟨?_, ?_⟩, ⟨?_, ?_⟩, ⟨?_, ?_⟩, ⟨?_, ?_⟩, fun _ h => absurd h not_mem_nil⟩
  all_goals norm_num

theorem sorted_targets :
    operatingPointTargets.dedup.insertionSort (· ≤ ·) = operatingPointTargets := by
  decide +kernel

theorem pairwise_targets : operatingPointTargets.Pairwise (· < ·) := by
  rw [← sorted_targets]
  refine (pairwise_insertionSort (· ≤ ·) _).and
    ((perm_insertionSort (· ≤ ·) _).nodup_iff.mpr (nodup_dedup _)) |>.imp ?_
  exact fun h => lt_of_le_of_ne h.1 h.2

/-! ## Orders of the scores -/

theorem calibrate_perm {operatorScores' otherScores' : List ℚ}
    (hoperator : operatorScores.Perm operatorScores') (hother : otherScores.Perm otherScores')
    (target : ℚ) : calibrate operatorScores target (some otherScores) =
      calibrate operatorScores' target (some otherScores') := by
  have hquantile : quantile operatorScores target = quantile operatorScores' target := by
    unfold quantile
    rw [hoperator.length_eq, orderStatistic_perm hoperator]
  have hempty : (otherScores = []) = (otherScores' = []) := by
    rw [← length_eq_zero_iff, ← length_eq_zero_iff, hother.length_eq]
  unfold calibrate rejectRate admitRate
  simp only [Option.getD_some, hoperator.length_eq, hother.length_eq, hquantile,
    fraction_perm hoperator, fraction_perm hother, hempty]

theorem choices_perm {operatorScores' otherScores' : List ℚ}
    (hoperator : operatorScores.Perm operatorScores') (hother : otherScores.Perm otherScores')
    (seconds : Number) (targets : List ℚ) :
    operatingPointChoices operatorScores otherScores seconds targets =
      operatingPointChoices operatorScores' otherScores' seconds targets := by
  have hround : offerTarget operatorScores otherScores =
      offerTarget operatorScores' otherScores' := by
    funext offer target
    unfold offerTarget
    rw [hoperator.length_eq, calibrate_perm hoperator hother]
  unfold operatingPointChoices
  rw [hother.length_eq, hround]

/-! ## Every call -/

/-- What the loop over the targets leaves. -/
theorem exists_loop (hother : otherScores ≠ []) : ∃ seen,
    (operatingPointTargets.dedup.insertionSort (· ≤ ·)).foldlM
      (offerTarget operatorScores otherScores) ⟨[], []⟩ = .ok
        ⟨firstBy Point.costs [] (measured operatorScores otherScores operatingPointTargets),
          seen⟩ := by
  rw [sorted_targets]
  exact foldlM_offerTarget hother usable_targets

theorem finite_eq_error {name : String} {value : Number} {lo hi : Option ℚ} {raised : Raised}
    (h : finite name value lo hi = .error raised) : (∃ message, raised = .systemExit message) ∧
      (value = .notFinite ∨ ∃ v, value = .finite v ∧ ((∃ l ∈ lo, v < l) ∨ ∃ h ∈ hi, h < v)) := by
  unfold finite at h
  cases value with
  | notFinite => exact ⟨⟨_, (Except.error.inj h).symm⟩, .inl rfl⟩
  | finite v =>
    by_cases hout : (∃ l ∈ lo, v < l) ∨ ∃ h ∈ hi, h < v
    · simp only [refuseIf_of hout, error_bind] at h
      exact ⟨⟨_, (Except.error.inj h).symm⟩, .inr ⟨v, rfl, hout⟩⟩
    · simp only [refuseIf_of_not hout, ok_bind] at h
      cases h

/-- For any scores and seconds the choices are refused or offered, in whatever order the scores
come: seconds that are negative or no number end the program, everything else that is
refused is a `ValueError`. -/
theorem operating_points_offered (operatorScores otherScores : List ℚ) (seconds : Number) :
    (∀ raised, operatingPointChoices operatorScores otherScores seconds operatingPointTargets =
        .error raised → (∃ message, raised = .valueError message) ∨
      (∃ message, raised = .systemExit message) ∧
        (seconds = .notFinite ∨ ∃ value < 0, seconds = .finite value)) ∧
    (∀ points, operatingPointChoices operatorScores otherScores seconds operatingPointTargets =
        .ok points → Offered operatorScores otherScores operatingPointTargets points) ∧
    ∀ operatorScores' otherScores', operatorScores.Perm operatorScores' →
      otherScores.Perm otherScores' →
      operatingPointChoices operatorScores otherScores seconds operatingPointTargets =
        operatingPointChoices operatorScores' otherScores' seconds operatingPointTargets := by
  refine ⟨fun raised h => ?_, fun points h => ?_,
    fun _ _ hoperator hother => choices_perm hoperator hother seconds _⟩
  · unfold operatingPointChoices at h
    by_cases hfew : otherScores.length < minNegativeScorableSegments
    · rw [refuseIf_of hfew, error_bind] at h
      exact .inl ⟨_, (Except.error.inj h).symm⟩
    · rw [refuseIf_of_not hfew, ok_bind] at h
      have hother : otherScores ≠ [] := fun hnil => hfew (by rw [hnil]; decide)
      cases hseconds : finite "negative_scorable_seconds" seconds (some 0) none with
      | error e =>
        rw [hseconds, error_bind] at h
        obtain ⟨hexit, hvalue⟩ := finite_eq_error hseconds
        refine .inr ⟨Except.error.inj h ▸ hexit, hvalue.imp_right ?_⟩
        rintro ⟨v, rfl, ⟨l, hl, hless⟩ | ⟨l, hl, -⟩⟩
        · cases hl
          exact ⟨v, hless, rfl⟩
        · cases hl
      | ok value =>
        rw [hseconds, ok_bind] at h
        obtain ⟨seen, hloop⟩ := @exists_loop operatorScores _ hother
        by_cases hshort : value < minNegativeScorableSeconds
        · rw [refuseIf_of hshort, error_bind] at h
          exact .inl ⟨_, (Except.error.inj h).symm⟩
        · rw [refuseIf_of_not hshort, ok_bind, hloop, ok_bind] at h
          by_cases hone : (firstBy Point.costs []
              (measured operatorScores otherScores operatingPointTargets)).length < 2
          · rw [refuseIf_of hone, error_bind] at h
            exact .inl ⟨_, (Except.error.inj h).symm⟩
          · rw [refuseIf_of_not hone, ok_bind] at h
            cases h
  · unfold operatingPointChoices at h
    simp only [bind_eq_ok, refuseIf_eq_ok] at h
    obtain ⟨_, hmany, _, -, _, -, offer, hoffer, _, hlength, hpoints⟩ := h
    have hother : otherScores ≠ [] := fun hnil => hmany (by rw [hnil]; decide)
    obtain ⟨seen, hloop⟩ := @exists_loop operatorScores _ hother
    rw [hloop] at hoffer
    cases hoffer
    cases hpoints
    exact offered_surfaced pairwise_targets usable_targets (Nat.not_lt.mp hlength)

/-- Seconds below zero are refused by the end of the program. -/
theorem operating_points_exit :
    ¬ ∀ (operatorScores otherScores : List ℚ) (seconds : Number),
      (∃ message, operatingPointChoices operatorScores otherScores seconds operatingPointTargets =
        .error (.valueError message)) ∨
      ∃ points, operatingPointChoices operatorScores otherScores seconds operatingPointTargets =
        .ok points := by
  intro h
  have hexit : operatingPointChoices [] (List.replicate 20 0) (.finite (-1)) operatingPointTargets =
      .error (.systemExit
        ⟨"negative_scorable_seconds is \x7b\x7d, outside the valid range [\x7b\x7d, \x7b\x7d]",
          [some (.finite (-1)), some (.finite 0), none]⟩) := by decide +kernel
  rcases h [] (List.replicate 20 0) (.finite (-1)) with ⟨message, hvalue⟩ | ⟨points, hpoints⟩
  · rw [hexit] at hvalue
    cases hvalue
  · rw [hexit] at hpoints
    cases hpoints

end Choices

end SpeakerGate

end YawnApp.Worker
