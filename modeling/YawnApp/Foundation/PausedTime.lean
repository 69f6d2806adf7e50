import Mathlib.MeasureTheory.Measure.Lebesgue.Basic
import Mathlib.MeasureTheory.Measure.Real

set_option autoImplicit false

/-!
# Time that was not paused

How much of the time from 0 to a moment lies outside some spans that are ordered and
disjoint.  It is the measure of what is left of the interval, and for each moment it is the
moment less what each span takes of it.
-/

namespace YawnApp.Foundation

open MeasureTheory

/-- Spans of time from 0 on, one after the other. -/
structure OrderedSpans (spans : List (ℚ × ℚ)) : Prop where
  starts : ∀ span ∈ spans, 0 ≤ span.1
  lengths : ∀ span ∈ spans, span.1 ≤ span.2
  disjoint : spans.Pairwise fun earlier later => earlier.2 ≤ later.1

/-- The instants of the spans. -/
def pausedTime (spans : List (ℚ × ℚ)) : Set ℝ :=
  {t | ∃ span ∈ spans, (span.1 : ℝ) ≤ t ∧ t < span.2}

/-- The instants up to a moment that are in no span. -/
def runningTime (spans : List (ℚ × ℚ)) (moment : ℚ) : Set ℝ :=
  Set.Icc 0 (moment : ℝ) \ pausedTime spans

/-- What a span takes of the time up to a moment. -/
def taken (moment : ℚ) (span : ℚ × ℚ) : ℚ := max 0 (min moment span.2 - span.1)

/-- The moment less what the spans take of it. -/
def elapsed (spans : List (ℚ × ℚ)) (moment : ℚ) : ℚ := moment - (spans.map (taken moment)).sum

variable {spans : List (ℚ × ℚ)} {moment : ℚ} {span : ℚ × ℚ}

theorem OrderedSpans.tail (h : OrderedSpans (span :: spans)) : OrderedSpans spans :=
  ⟨fun s hs => h.starts s (List.mem_cons_of_mem _ hs),
    fun s hs => h.lengths s (List.mem_cons_of_mem _ hs), (List.pairwise_cons.mp h.disjoint).2⟩

theorem pausedTime_cons (span : ℚ × ℚ) (spans : List (ℚ × ℚ)) :
    pausedTime (span :: spans) = Set.Ico (span.1 : ℝ) span.2 ∪ pausedTime spans := by
  ext t
  simp only [pausedTime, List.mem_cons, exists_eq_or_imp, Set.mem_ofPred_eq, Set.mem_union,
    Set.mem_Ico]

/-- What one span has of the time up to a moment. -/
theorem measure_span (hstart : 0 ≤ span.1) :
    volume.real (Set.Icc 0 (moment : ℝ) ∩ Set.Ico (span.1 : ℝ) span.2) = taken moment span := by
  have hset : Set.Icc 0 (moment : ℝ) ∩ Set.Ico (span.1 : ℝ) span.2 =
      Set.Icc (span.1 : ℝ) moment ∩ Set.Iio (span.2 : ℝ) := by
    ext t
    have hzero : (0 : ℝ) ≤ span.1 := by exact_mod_cast hstart
    simp only [Set.mem_inter_iff, Set.mem_Icc, Set.mem_Ico, Set.mem_Iio]
    constructor
    · rintro ⟨⟨-, hle⟩, hfrom, hto⟩
      exact ⟨⟨hfrom, hle⟩, hto⟩
    · rintro ⟨⟨hfrom, hle⟩, hto⟩
      exact ⟨⟨hzero.trans hfrom, hle⟩, hfrom, hto⟩
  rw [hset, taken]
  rcases le_or_gt span.2 moment with hwhole | hpart
  · have hinter : Set.Icc (span.1 : ℝ) moment ∩ Set.Iio (span.2 : ℝ) =
        Set.Ico (span.1 : ℝ) span.2 := by
      ext t
      have hcast : (span.2 : ℝ) ≤ moment := by exact_mod_cast hwhole
      simp only [Set.mem_inter_iff, Set.mem_Icc, Set.mem_Ico, Set.mem_Iio]
      exact ⟨fun ⟨⟨hfrom, _⟩, hto⟩ => ⟨hfrom, hto⟩,
        fun ⟨hfrom, hto⟩ => ⟨⟨hfrom, hto.le.trans hcast⟩, hto⟩⟩
    rw [hinter, Real.volume_real_Ico, min_eq_right hwhole, max_comm]
    push_cast
    rfl
  · have hinter : Set.Icc (span.1 : ℝ) moment ∩ Set.Iio (span.2 : ℝ) =
        Set.Icc (span.1 : ℝ) moment := by
      apply Set.inter_eq_left.mpr
      intro t ht
      have hcast : (moment : ℝ) < span.2 := by exact_mod_cast hpart
      exact lt_of_le_of_lt ht.2 hcast
    rw [hinter, Real.volume_real_Icc, min_eq_left hpart.le, max_comm]
    push_cast
    rfl

theorem volume_runningTime_ne_top (spans : List (ℚ × ℚ)) (moment : ℚ) :
    volume (runningTime spans moment) ≠ ⊤ :=
  ne_top_of_le_ne_top (measure_Icc_lt_top (a := 0) (b := (moment : ℝ))).ne
    (measure_mono Set.sdiff_subset)

/-- The measure of the time that runs. -/
theorem measure_runningTime (h : OrderedSpans spans) (hmoment : 0 ≤ moment) :
    volume.real (runningTime spans moment) = elapsed spans moment := by
  have hzero : (0 : ℝ) ≤ moment := by exact_mod_cast hmoment
  induction spans with
  | nil =>
    have hempty : runningTime [] moment = Set.Icc 0 (moment : ℝ) := by
      ext t
      simp [runningTime, pausedTime]
    rw [hempty, Real.volume_real_Icc_of_le hzero]
    simp [elapsed]
  | cons span spans ih =>
    have hspan : runningTime (span :: spans) moment =
        runningTime spans moment \ Set.Ico (span.1 : ℝ) span.2 := by
      rw [runningTime, pausedTime_cons, runningTime, Set.sdiff_sdiff, Set.union_comm]
    -- the later spans take nothing of this one
    have hapart : runningTime spans moment ∩ Set.Ico (span.1 : ℝ) span.2 =
        Set.Icc 0 (moment : ℝ) ∩ Set.Ico (span.1 : ℝ) span.2 := by
      ext t
      simp only [runningTime, Set.mem_inter_iff, Set.mem_sdiff]
      refine ⟨fun ⟨⟨hup, _⟩, hin⟩ => ⟨hup, hin⟩, fun ⟨hup, hin⟩ => ⟨⟨hup, ?_⟩, hin⟩⟩
      rintro ⟨later, hlater, hfrom, -⟩
      have hafter : (span.2 : ℝ) ≤ later.1 := by
        exact_mod_cast (List.pairwise_cons.mp h.disjoint).1 later hlater
      exact absurd hin.2 (not_lt.mpr (hafter.trans hfrom))
    have hsplit := measureReal_inter_add_sdiff (μ := volume) (s := runningTime spans moment)
      (measurableSet_Ico (a := (span.1 : ℝ)) (b := span.2)) (volume_runningTime_ne_top spans moment)
    rw [hapart, measure_span (h.starts span List.mem_cons_self), ih h.tail,
      ← hspan] at hsplit
    have helapsed : elapsed (span :: spans) moment = elapsed spans moment - taken moment span := by
      unfold elapsed
      rw [List.map_cons, List.sum_cons]
      ring
    rw [helapsed]
    push_cast
    linarith

theorem elapsed_nonneg (h : OrderedSpans spans) (hmoment : 0 ≤ moment) :
    0 ≤ elapsed spans moment := by
  have hmeasure := measure_runningTime h hmoment
  have hnonneg : (0 : ℝ) ≤ (elapsed spans moment : ℚ) := hmeasure ▸ measureReal_nonneg
  exact_mod_cast hnonneg

theorem elapsed_mono (h : OrderedSpans spans) {later : ℚ} (hmoment : 0 ≤ moment)
    (hle : moment ≤ later) : elapsed spans moment ≤ elapsed spans later := by
  have hsubset : runningTime spans moment ⊆ runningTime spans later := by
    have hcast : (moment : ℝ) ≤ later := by exact_mod_cast hle
    exact Set.sdiff_subset_sdiff_left (Set.Icc_subset_Icc_right hcast)
  have hmeasure := measureReal_mono (μ := volume) hsubset (volume_runningTime_ne_top spans later)
  rw [measure_runningTime h hmoment, measure_runningTime h (hmoment.trans hle)] at hmeasure
  exact_mod_cast hmeasure

/-- No time runs inside a span. -/
theorem elapsed_paused (h : OrderedSpans spans) (hspan : span ∈ spans) {later : ℚ}
    (hfrom : span.1 ≤ moment) (hle : moment ≤ later) (hto : later ≤ span.2) :
    elapsed spans later = elapsed spans moment := by
  have hmoment : 0 ≤ moment := (h.starts span hspan).trans hfrom
  refine le_antisymm ?_ (elapsed_mono h hmoment hle)
  -- the moment itself is all that the later one adds
  have hsubset : runningTime spans later ⊆ runningTime spans moment ∪ {(later : ℝ)} := by
    rintro t ⟨⟨hzero, hlater⟩, hrunning⟩
    rcases le_or_gt t moment with hearly | hlate
    · exact .inl ⟨⟨hzero, hearly⟩, hrunning⟩
    · rcases hlater.lt_or_eq with hbefore | heq
      · have hstart : (span.1 : ℝ) ≤ moment := by exact_mod_cast hfrom
        have hend : (later : ℝ) ≤ span.2 := by exact_mod_cast hto
        exact absurd ⟨span, hspan, hstart.trans hlate.le, hbefore.trans_le hend⟩ hrunning
      · exact .inr heq
  have hfinite : volume (runningTime spans moment ∪ {(later : ℝ)}) ≠ ⊤ :=
    measure_union_ne_top (volume_runningTime_ne_top spans moment) (by simp)
  have hmeasure := (measureReal_mono (μ := volume) hsubset hfinite).trans
    (measureReal_union_le _ _)
  rw [measure_runningTime h hmoment, measure_runningTime h (hmoment.trans hle)] at hmeasure
  have hpoint : volume.real {(later : ℝ)} = 0 := by simp [measureReal_def]
  rw [hpoint, add_zero] at hmeasure
  exact_mod_cast hmeasure

end YawnApp.Foundation
