import Mathlib.Data.List.MinMax
import Mathlib.Data.List.Sort

set_option autoImplicit false

/-!
# The transcript of a running meeting (`TranscriptTimeline.swift`)

Speech results arrive one by one, final or in progress, with any ranges and in any order,
and each is merged into what is shown.
-/

namespace YawnApp.Ink

/-- `TranscriptSegment`; times are of any linear order. -/
structure TranscriptSegment (τ : Type) where
  start : τ
  stop : τ
  text : String
  isFinal : Bool
deriving DecidableEq, Repr

namespace TranscriptTimeline

open List

variable {τ : Type} [LinearOrder τ]

def overlaps (a b : TranscriptSegment τ) : Bool := a.start < b.stop && b.start < a.stop

/-- Not after by `($0.start, $0.end) < ($1.start, $1.end)`. -/
def notAfter (a b : TranscriptSegment τ) : Prop :=
  a.start < b.start ∨ (a.start = b.start ∧ a.stop ≤ b.stop)

instance (a b : TranscriptSegment τ) : Decidable (notAfter a b) :=
  inferInstanceAs (Decidable (_ ∨ _))

def sorted (segments : List (TranscriptSegment τ)) : List (TranscriptSegment τ) :=
  segments.insertionSort notAfter

/-- `merging` -/
def merging (existing : List (TranscriptSegment τ)) (incoming : TranscriptSegment τ) :
    List (TranscriptSegment τ) :=
  let finals := existing.filter TranscriptSegment.isFinal
  if incoming.isFinal = false then
    if (incoming.stop : WithBot τ) ≤ (finals.map TranscriptSegment.stop).maximum then existing
    else sorted (finals ++ [incoming])
  else
    let keptFinals := finals.filter fun segment =>
      !(segment.start == incoming.start && segment.stop == incoming.stop)
    let keptInProgress := existing.filter fun segment =>
      !segment.isFinal && !(overlaps segment incoming || decide (incoming.start ≤ segment.start))
    sorted (keptFinals ++ keptInProgress ++ [incoming])

/-- The transcript after some results. -/
def timeline (results : List (TranscriptSegment τ)) : List (TranscriptSegment τ) :=
  results.foldl merging []

theorem timeline_concat (results : List (TranscriptSegment τ)) (incoming : TranscriptSegment τ) :
    timeline (results ++ [incoming]) = merging (timeline results) incoming := by
  rw [timeline, foldl_concat]
  rfl

/-! ## Order -/

instance : Std.Total (notAfter (τ := τ)) where
  total a b := by
    unfold notAfter
    rcases lt_trichotomy a.start b.start with h | h | h
    · exact .inl (.inl h)
    · rcases le_total a.stop b.stop with hstop | hstop
      · exact .inl (.inr ⟨h, hstop⟩)
      · exact .inr (.inr ⟨h.symm, hstop⟩)
    · exact .inr (.inl h)

instance : IsTrans (TranscriptSegment τ) notAfter where
  trans a b c hab hbc := by
    unfold notAfter at *
    rcases hab with hab | ⟨hab, habStop⟩
    · rcases hbc with hbc | ⟨hbc, -⟩
      · exact .inl (hab.trans hbc)
      · exact .inl (hbc ▸ hab)
    · rcases hbc with hbc | ⟨hbc, hbcStop⟩
      · exact .inl (hab ▸ hbc)
      · exact .inr ⟨hab.trans hbc, habStop.trans hbcStop⟩

/-! ## One result -/

section Step

variable {existing : List (TranscriptSegment τ)} {incoming segment : TranscriptSegment τ}

/-- In-progress text that the finals already reach is dropped. -/
theorem merging_of_reached (hprogress : incoming.isFinal = false)
    (hreached : ∃ final ∈ existing, final.isFinal = true ∧ incoming.stop ≤ final.stop) :
    merging existing incoming = existing := by
  obtain ⟨final, hmem, hfinal, hle⟩ := hreached
  have hmax : (incoming.stop : WithBot τ) ≤
      ((existing.filter TranscriptSegment.isFinal).map TranscriptSegment.stop).maximum :=
    coe_le_maximum_iff.mpr
      ⟨final.stop, mem_map_of_mem (mem_filter.mpr ⟨hmem, hfinal⟩), hle⟩
  simp only [merging, if_pos hprogress, if_pos hmax]

theorem merging_of_beyond (hprogress : incoming.isFinal = false)
    (hbeyond : ∀ final ∈ existing, final.isFinal = true → final.stop < incoming.stop) :
    merging existing incoming =
      sorted (existing.filter TranscriptSegment.isFinal ++ [incoming]) := by
  have hmax : ¬ (incoming.stop : WithBot τ) ≤
      ((existing.filter TranscriptSegment.isFinal).map TranscriptSegment.stop).maximum := by
    intro hle
    obtain ⟨_, hmem, hle⟩ := coe_le_maximum_iff.mp hle
    obtain ⟨final, hfinal, rfl⟩ := mem_map.mp hmem
    obtain ⟨hmem, hfinal⟩ := mem_filter.mp hfinal
    exact absurd (hbeyond final hmem hfinal) (not_lt.mpr hle)
  simp only [merging, if_pos hprogress, if_neg hmax]

/-- What is shown after in-progress text that was not dropped. -/
theorem mem_merging_progress (hprogress : incoming.isFinal = false)
    (hbeyond : ∀ final ∈ existing, final.isFinal = true → final.stop < incoming.stop) :
    segment ∈ merging existing incoming ↔
      (segment ∈ existing ∧ segment.isFinal = true) ∨ segment = incoming := by
  rw [merging_of_beyond hprogress hbeyond, sorted, mem_insertionSort, mem_append,
    mem_filter, mem_singleton]

/-- What is shown after a final. -/
theorem mem_merging_final (hfinal : incoming.isFinal = true) :
    segment ∈ merging existing incoming ↔
      (segment ∈ existing ∧ segment.isFinal = true ∧
        ¬ (segment.start = incoming.start ∧ segment.stop = incoming.stop)) ∨
      (segment ∈ existing ∧ segment.isFinal = false ∧ overlaps segment incoming = false ∧
        segment.start < incoming.start) ∨ segment = incoming := by
  simp only [merging, hfinal, Bool.true_eq_false, if_false, sorted, mem_insertionSort,
    mem_append, mem_filter, mem_singleton, Bool.not_eq_true', Bool.and_eq_true,
    Bool.or_eq_false_iff, decide_eq_false_iff_not, not_le, Bool.and_eq_false_iff, beq_eq_false_iff_ne]
  rw [not_and_or, and_assoc, or_assoc]

theorem mem_merging_self (hkept : incoming.isFinal = true ∨
    ∀ final ∈ existing, final.isFinal = true → final.stop < incoming.stop) :
    incoming ∈ merging existing incoming := by
  cases hfinal : incoming.isFinal with
  | true => exact (mem_merging_final hfinal).mpr (.inr (.inr rfl))
  | false =>
    refine (mem_merging_progress hfinal ?_).mpr (.inr rfl)
    exact hkept.resolve_left (by rw [hfinal]; exact Bool.false_ne_true)

/-- In-progress text either leaves what is shown as it is or stands beyond all finals. -/
theorem merging_progress_cases (hprogress : incoming.isFinal = false) :
    merging existing incoming = existing ∨
      ∀ final ∈ existing, final.isFinal = true → final.stop < incoming.stop := by
  by_cases hreached : ∃ final ∈ existing, final.isFinal = true ∧ incoming.stop ≤ final.stop
  · exact .inl (merging_of_reached hprogress hreached)
  · right
    intro final hmem hfinal
    exact lt_of_not_ge fun hle => hreached ⟨final, hmem, hfinal, hle⟩

theorem mem_of_mem_merging (h : segment ∈ merging existing incoming) :
    segment ∈ existing ∨ segment = incoming := by
  cases hfinal : incoming.isFinal with
  | true =>
    rcases (mem_merging_final hfinal).mp h with ⟨hmem, -⟩ | ⟨hmem, -⟩ | rfl
    · exact .inl hmem
    · exact .inl hmem
    · exact .inr rfl
  | false =>
    rcases @merging_progress_cases _ _ existing _ hfinal with heq | hbeyond
    · exact .inl (by rwa [heq] at h)
    · exact ((mem_merging_progress hfinal hbeyond).mp h).imp_left And.left

theorem pairwise_merging (h : existing.Pairwise notAfter) :
    (merging existing incoming).Pairwise notAfter := by
  unfold merging
  simp only []
  split
  · split
    · exact h
    · exact pairwise_insertionSort _ _
  · exact pairwise_insertionSort _ _

/-- The in-progress text that is shown. -/
def inProgress (segments : List (TranscriptSegment τ)) : List (TranscriptSegment τ) :=
  segments.filter fun segment => !segment.isFinal

theorem length_inProgress_merging (h : (inProgress existing).length ≤ 1) :
    (inProgress (merging existing incoming)).length ≤ 1 := by
  cases hfinal : incoming.isFinal with
  | false =>
    rcases @merging_progress_cases _ _ existing _ hfinal with heq | hbeyond
    · rw [heq]
      exact h
    · rw [merging_of_beyond hfinal hbeyond, inProgress, sorted,
        ((perm_insertionSort _ _).filter _).length_eq, filter_append, filter_filter]
      simp [hfinal]
  | true =>
    refine le_trans ?_ h
    unfold inProgress merging
    simp only [hfinal, Bool.true_eq_false, if_false, sorted]
    rw [← countP_eq_length_filter, ← countP_eq_length_filter,
      (perm_insertionSort _ _).countP_eq, countP_append, countP_append,
      countP_filter, countP_filter, countP_filter]
    have hfinals : existing.countP (fun segment => !segment.isFinal &&
        !(segment.start == incoming.start && segment.stop == incoming.stop) &&
          segment.isFinal) = 0 := by
      rw [countP_eq_zero]
      intro segment _ h
      simp only [Bool.and_eq_true, Bool.not_eq_true'] at h
      exact absurd h.2 (by rw [h.1.1]; exact Bool.false_ne_true)
    have hincoming : [incoming].countP (fun segment => !segment.isFinal) = 0 := by
      rw [countP_eq_zero]
      intro segment hmem
      rw [mem_singleton.mp hmem, hfinal]
      exact Bool.false_ne_true
    rw [hfinals, hincoming, Nat.zero_add, Nat.add_zero]
    apply countP_mono_left
    intro segment _ h
    exact (Bool.and_eq_true_iff.mp h).1

end Step

/-! ## All results -/

/-- What holds of every history. -/
structure Merged (results : List (TranscriptSegment τ)) : Prop where
  sorted : (timeline results).Pairwise notAfter
  single : (inProgress (timeline results)).length ≤ 1
  /-- A final is shown when it has arrived, and goes only for one of its range. -/
  arrives : ∀ before final after, results = before ++ final :: after → final.isFinal = true →
    final ∈ timeline (before ++ [final])
  replaced : ∀ before next after, results = before ++ next :: after →
    ∀ final ∈ timeline before, final.isFinal = true → final ∉ timeline (before ++ [next]) →
      next.isFinal = true ∧ next.start = final.start ∧ next.stop = final.stop
  /-- In-progress text has been shown since it arrived, and no final since then overlaps it. -/
  apart : ∀ segment ∈ timeline results, segment.isFinal = false →
    ∃ before after, results = before ++ segment :: after ∧
      (∀ shown, shown <+: after → segment ∈ timeline (before ++ segment :: shown)) ∧
      ∀ final ∈ after, final.isFinal = true → overlaps segment final = false

/-- In-progress text ends behind every final. -/
def Tail (results : List (TranscriptSegment τ)) : Prop :=
  ∀ segment ∈ timeline results, segment.isFinal = false →
    ∀ final ∈ timeline results, final.isFinal = true → final.stop < segment.stop

/-- No final arrives that begins where in-progress text that is shown has ended. -/
def FinalsReachBack (results : List (TranscriptSegment τ)) : Prop :=
  ∀ before final after, results = before ++ final :: after → final.isFinal = true →
    ∀ segment ∈ timeline before, segment.isFinal = false → final.start < segment.stop

variable {segment : TranscriptSegment τ} {results existing : List (TranscriptSegment τ)}
  {incoming : TranscriptSegment τ}

theorem mem_of_mem_timeline (h : segment ∈ timeline results) : segment ∈ results := by
  induction results using List.reverseRecOn with
  | nil => cases h
  | append_singleton results incoming ih =>
    rw [timeline_concat] at h
    rcases mem_of_mem_merging h with hmem | rfl
    · exact mem_append_left _ (ih hmem)
    · exact mem_append_right _ mem_cons_self

/-- A final goes only for a final of its range. -/
theorem replaced_of_notMem {next final : TranscriptSegment τ} (hmem : final ∈ existing)
    (hfinal : final.isFinal = true) (hgone : final ∉ merging existing next) :
    next.isFinal = true ∧ next.start = final.start ∧ next.stop = final.stop := by
  cases hnext : next.isFinal with
  | false =>
    rcases @merging_progress_cases _ _ existing _ hnext with heq | hbeyond
    · exact absurd (by rw [heq]; exact hmem) hgone
    · exact absurd ((mem_merging_progress hnext hbeyond).mpr (.inl ⟨hmem, hfinal⟩)) hgone
  | true =>
    by_cases hrange : final.start = next.start ∧ final.stop = next.stop
    · exact ⟨rfl, hrange.1.symm, hrange.2.symm⟩
    · exact absurd ((mem_merging_final hnext).mpr (.inl ⟨hmem, hfinal, hrange⟩)) hgone

/-- In-progress text that stays is not overlapped by what arrives. -/
theorem overlaps_of_stays (hprogress : segment.isFinal = false)
    (hstays : segment ∈ merging existing incoming) (hfinal : incoming.isFinal = true) :
    segment ∈ existing ∧ overlaps segment incoming = false := by
  rcases (mem_merging_final hfinal).mp hstays with ⟨-, habsurd, -⟩ | ⟨hmem, -, hapart, -⟩ | rfl
  · exact absurd habsurd (by rw [hprogress]; exact Bool.false_ne_true)
  · exact ⟨hmem, hapart⟩
  · exact absurd hfinal (by rw [hprogress]; exact Bool.false_ne_true)

/-- In-progress text was shown before, or it is what has arrived. -/
theorem apart_concat (ih : ∀ segment ∈ timeline results, segment.isFinal = false →
      ∃ before after, results = before ++ segment :: after ∧
        (∀ shown, shown <+: after → segment ∈ timeline (before ++ segment :: shown)) ∧
        ∀ final ∈ after, final.isFinal = true → overlaps segment final = false)
    (hmem : segment ∈ timeline (results ++ [incoming])) (hprogress : segment.isFinal = false) :
    ∃ before after, results ++ [incoming] = before ++ segment :: after ∧
      (∀ shown, shown <+: after → segment ∈ timeline (before ++ segment :: shown)) ∧
      ∀ final ∈ after, final.isFinal = true → overlaps segment final = false := by
  have hmerged := hmem
  rw [timeline_concat] at hmerged
  by_cases hnew : segment = incoming
  · subst hnew
    refine ⟨results, [], rfl, fun shown hshown => ?_, fun final hfinal => by cases hfinal⟩
    rw [prefix_nil.mp hshown]
    exact hmem
  · have hold : segment ∈ timeline results := (mem_of_mem_merging hmerged).resolve_right hnew
    obtain ⟨before, after, hsplit, hstays, hapart⟩ := ih segment hold hprogress
    refine ⟨before, after ++ [incoming], by rw [hsplit]; simp, fun shown hshown => ?_, ?_⟩
    · rcases prefix_concat_iff.mp hshown with rfl | hshown
      · rw [hsplit, append_assoc, cons_append] at hmem
        exact hmem
      · exact hstays shown hshown
    · intro final hfinal hisFinal
      rcases mem_append.mp hfinal with hfinal | hfinal
      · exact hapart final hfinal hisFinal
      · rw [mem_singleton.mp hfinal] at hisFinal ⊢
        exact (overlaps_of_stays hprogress hmerged hisFinal).2

theorem merged (results : List (TranscriptSegment τ)) : Merged results := by
  refine ⟨?_, ?_, ?_, ?_, ?_⟩
  · induction results using List.reverseRecOn with
    | nil => exact List.Pairwise.nil
    | append_singleton results incoming ih =>
      rw [timeline_concat]
      exact pairwise_merging ih
  · induction results using List.reverseRecOn with
    | nil => exact Nat.zero_le 1
    | append_singleton results incoming ih =>
      rw [timeline_concat]
      exact length_inProgress_merging ih
  · intro before final after _ hfinal
    rw [timeline_concat]
    exact mem_merging_self (.inl hfinal)
  · intro before next after _ final hmem hfinal hgone
    rw [timeline_concat] at hgone
    exact replaced_of_notMem hmem hfinal hgone
  · induction results using List.reverseRecOn with
    | nil => intro segment hmem; cases hmem
    | append_singleton results incoming ih =>
      intro segment hmem hprogress
      exact apart_concat ih hmem hprogress

/-- A final that reaches back to in-progress text takes its place. -/
theorem tail_merging (hincoming : incoming.start < incoming.stop)
    (htail : ∀ segment ∈ existing, segment.isFinal = false →
      ∀ final ∈ existing, final.isFinal = true → final.stop < segment.stop)
    (hback : incoming.isFinal = true →
      ∀ segment ∈ existing, segment.isFinal = false → incoming.start < segment.stop) :
    ∀ segment ∈ merging existing incoming, segment.isFinal = false →
      ∀ final ∈ merging existing incoming, final.isFinal = true → final.stop < segment.stop := by
  intro segment hmem hprogress final hfinalMem hisFinal
  cases hfinal : incoming.isFinal with
  | true =>
    rcases (mem_merging_final hfinal).mp hmem with ⟨-, habsurd, -⟩ | ⟨hold, -, hapart, hstart⟩ | rfl
    · exact absurd habsurd (by rw [hprogress]; exact Bool.false_ne_true)
    · -- it starts before the final and ends behind its start
      have hmeet : overlaps segment incoming = true := by
        unfold overlaps
        rw [Bool.and_eq_true, decide_eq_true_eq, decide_eq_true_eq]
        exact ⟨hstart.trans hincoming, hback hfinal segment hold hprogress⟩
      rw [hmeet] at hapart
      cases hapart
    · exact absurd hfinal (by rw [hprogress]; exact Bool.false_ne_true)
  | false =>
    rcases @merging_progress_cases _ _ existing _ hfinal with heq | hbeyond
    · rw [heq] at hmem hfinalMem
      exact htail segment hmem hprogress final hfinalMem hisFinal
    · rcases (mem_merging_progress hfinal hbeyond).mp hmem with ⟨-, habsurd⟩ | rfl
      · exact absurd habsurd (by rw [hprogress]; exact Bool.false_ne_true)
      · rcases (mem_merging_progress hfinal hbeyond).mp hfinalMem with ⟨hold, -⟩ | rfl
        · exact hbeyond final hold hisFinal
        · exact absurd hisFinal (by rw [hprogress]; exact Bool.false_ne_true)

theorem tail_of_finalsReachBack (hrange : ∀ segment ∈ results, segment.start < segment.stop)
    (hback : FinalsReachBack results) : Tail results := by
  induction results using List.reverseRecOn with
  | nil => intro segment hmem; cases hmem
  | append_singleton results incoming ih =>
    have hbefore : FinalsReachBack results := fun before final after hsplit =>
      hback before final (after ++ [incoming]) (by rw [hsplit]; simp)
    have htail := ih (fun segment hmem => hrange segment (mem_append_left _ hmem)) hbefore
    unfold Tail
    rw [timeline_concat]
    exact tail_merging (hrange incoming (mem_append_right _ mem_cons_self)) htail
      (hback results incoming [] rfl)

/-- A final behind in-progress text leaves it in front of itself. -/
theorem not_tail_of_final_behind {before : List (TranscriptSegment τ)} {final : TranscriptSegment τ}
    (hrange : ∀ other ∈ before ++ [final], other.start < other.stop) (hfinal : final.isFinal = true)
    (hmem : segment ∈ timeline before) (hprogress : segment.isFinal = false)
    (hbehind : segment.stop ≤ final.start) : ¬ Tail (before ++ [final]) := by
  intro htail
  have hsegment := hrange segment (mem_append_left _ (mem_of_mem_timeline hmem))
  have hlength := hrange final (mem_append_right _ mem_cons_self)
  have hapart : overlaps segment final = false := by
    unfold overlaps
    rw [Bool.and_eq_false_iff]
    exact .inr (decide_eq_false (not_lt.mpr hbehind))
  have hstays : segment ∈ timeline (before ++ [final]) := by
    rw [timeline_concat]
    exact (mem_merging_final hfinal).mpr
      (.inr (.inl ⟨hmem, hprogress, hapart, hsegment.trans_le hbehind⟩))
  have hshown : final ∈ timeline (before ++ [final]) := by
    rw [timeline_concat]
    exact mem_merging_self (.inl hfinal)
  have hbeyond := htail segment hstays hprogress final hshown hfinal
  exact lt_irrefl _ ((hbeyond.trans_le hbehind).trans hlength)

/-- Whatever arrives, the transcript is sorted, has one in-progress segment at most, loses finals
only to finals of their range and shows no in-progress segment that a later final overlaps.  The
in-progress segment is behind every final all along just if no final arrives that begins where
in-progress text that is shown has ended. -/
theorem merging_keeps_iff (results : List (TranscriptSegment τ))
    (hrange : ∀ segment ∈ results, segment.start < segment.stop) :
    (∀ part, part <+: results → Merged part ∧ Tail part) ↔ FinalsReachBack results := by
  constructor
  · intro hkeeps before final after hsplit hfinal segment hmem hprogress
    by_contra hbehind
    have hpart : before ++ [final] <+: results := ⟨after, by rw [hsplit]; simp⟩
    refine not_tail_of_final_behind (fun other hother => hrange other (hpart.subset hother)) hfinal
      hmem hprogress (not_lt.mp hbehind) (hkeeps _ hpart).2
  · intro hback part hpart
    refine ⟨merged part, tail_of_finalsReachBack
      (fun segment hmem => hrange segment (hpart.subset hmem)) ?_⟩
    obtain ⟨rest, rfl⟩ := hpart
    intro before final after hsplit
    exact hback before final (after ++ rest) (by rw [hsplit]; simp)

/-- In-progress text and the final of the same words. -/
def morningResults : List (TranscriptSegment ℤ) :=
  [⟨0, 1, "Good", false⟩, ⟨0, 2, "Good morning", true⟩]

theorem merging_keeps_iff_morning : Merged morningResults ∧ Tail morningResults := by
  have hback : FinalsReachBack morningResults := by
    intro before final after hsplit hfinal segment hmem _
    rcases before with _ | ⟨first, _ | ⟨second, before⟩⟩
    · cases hmem
    · obtain ⟨rfl, rfl, -⟩ : ⟨0, 1, "Good", false⟩ = first ∧
          ⟨0, 2, "Good morning", true⟩ = final ∧ [] = after := by simpa [morningResults] using hsplit
      rw [List.mem_singleton.mp (mem_of_mem_timeline hmem)]
      decide
    · exact absurd (congrArg List.length hsplit) (by simp [morningResults])
  exact (merging_keeps_iff morningResults (by decide)).mpr hback morningResults
    (List.prefix_refl _)

/-- In-progress text, and a final of later words. -/
def skippedResults : List (TranscriptSegment ℤ) :=
  [⟨0, 1, "Good", false⟩, ⟨2, 3, "everyone", true⟩]

theorem merging_keeps_skipped :
    timeline skippedResults = [⟨0, 1, "Good", false⟩, ⟨2, 3, "everyone", true⟩] ∧
      ¬ Tail skippedResults := by
  have htimeline : timeline skippedResults =
      [⟨0, 1, "Good", false⟩, ⟨2, 3, "everyone", true⟩] := by decide
  refine ⟨htimeline, fun htail => ?_⟩
  have hbeyond := htail ⟨0, 1, "Good", false⟩ (by rw [htimeline]; decide) rfl
    ⟨2, 3, "everyone", true⟩ (by rw [htimeline]; decide) rfl
  exact absurd hbeyond (by decide)

end TranscriptTimeline

end YawnApp.Ink
