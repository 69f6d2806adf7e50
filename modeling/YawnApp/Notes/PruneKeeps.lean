import Mathlib.Algebra.Order.Group.Abs
import Mathlib.Algebra.Order.Group.Int
import Mathlib.Data.Int.LeastGreatest
import YawnApp.Foundation.Blocks
import YawnApp.Notes.CandidateFirst

set_option autoImplicit false

/-!
# What pruning keeps

The runs of a gap and the segments of a stride are cuts of the kept candidates, so a
stride longer than every run leaves one candidate a run and the search for a stride ends.
-/

namespace YawnApp.Notes

open YawnApp.Foundation List

/-! ## Runs and segments are cuts -/

/-- A row joins a run that ends close before it. -/
def joinsRun (gap : ℤ) (run : List Candidate) (row : Candidate) : Bool :=
  run.getLast?.any fun last => row.anchorTurn - last.anchorTurn ≤ gap

/-- A row joins a segment that began fewer turns before it than the stride. -/
def joinsSegment (stride : ℤ) (segment : List Candidate) (row : Candidate) : Bool :=
  segment.head?.any fun first => row.anchorTurn - first.anchorTurn < stride

theorem runsFrom_eq {gap : ℤ} (rest : List Candidate) :
    ∀ (done : List (List Candidate)) (run : List Candidate), run ≠ [] →
      runsFrom gap (done ++ [run]) rest = done ++ Blocks.cutFrom (joinsRun gap) run rest := by
  induction rest with
  | nil => exact fun _ _ _ => rfl
  | cons row rest ih =>
    intro done run hrun
    have hnear : (((done ++ [run]).getLast?.bind List.getLast?).any fun last =>
        row.anchorTurn - last.anchorTurn ≤ gap) = joinsRun gap run row := by
      rw [List.getLast?_concat, Option.bind_some, joinsRun]
    rw [runsFrom, Blocks.cutFrom, hnear]
    split
    · rw [dropLast_concat, getLastD_concat, ih _ _ (by simp)]
    · rw [ih (done ++ [run]) [row] (by simp), append_assoc, singleton_append]

theorem runsAt_eq (gap : ℤ) (kept : List Candidate) :
    runsAt gap kept = Blocks.cut (joinsRun gap) kept := by
  cases kept with
  | nil => rfl
  | cons row rest =>
    have h := @runsFrom_eq gap rest [] [row] (by simp)
    rwa [nil_append, nil_append] at h

theorem isCut_runsAt (gap : ℤ) (kept : List Candidate) :
    Blocks.IsCut (joinsRun gap) kept (runsAt gap kept) :=
  runsAt_eq gap kept ▸ Blocks.isCut_cut kept

/-- The candidate that stands for a segment. -/
def representative (segment : List Candidate) : Option Candidate := (longestAnchor segment).toOption

variable {row : Candidate} {kept : List Candidate} {budget strideFloor maxGap : ℤ}
  {segment run survivors : List Candidate} {gap : ℤ}

theorem longestAnchor_mem (h : longestAnchor segment = .ok row) : row ∈ segment := by
  have hfold : ∀ (rest : List Candidate) (first : Candidate), rest.foldl
      (fun best row => if row.anchorLength > best.anchorLength then row else best) first ∈
        first :: rest := by
    intro rest
    induction rest with
    | nil => exact fun first => mem_singleton_self first
    | cons next rest ih =>
      intro first
      rw [foldl_cons]
      split
      · exact mem_cons_of_mem _ (ih next)
      · rcases mem_cons.mp (ih first) with heq | hmem
        · rw [heq]
          exact mem_cons_self
        · exact mem_cons_of_mem _ (mem_cons_of_mem _ hmem)
  cases segment with
  | nil => cases h
  | cons first rest =>
    cases h
    exact hfold rest first

theorem longestAnchor_of_ne_nil (h : segment ≠ []) :
    ∃ row, longestAnchor segment = .ok row ∧ representative segment = some row := by
  cases segment with
  | nil => exact absurd rfl h
  | cons => exact ⟨_, rfl, rfl⟩

theorem representative_mem (h : representative segment = some row) : row ∈ segment := by
  unfold representative at h
  cases hlongest : longestAnchor segment with
  | error => rw [hlongest] at h; cases h
  | ok =>
    rw [hlongest] at h
    cases h
    exact longestAnchor_mem hlongest

/-- The segments of the runs. -/
def segmentsOf (stride : ℤ) (runs : List (List Candidate)) : List (List Candidate) :=
  runs.flatMap (Blocks.cut (joinsSegment stride))

def survivorsOf (stride : ℤ) (runs : List (List Candidate)) : List Candidate :=
  (segmentsOf stride runs).filterMap representative

theorem collapseRun_eq {stride : ℤ} (rest : List Candidate) :
    ∀ {segment : List Candidate} {first : Candidate}, segment.head? = some first →
      collapseRun stride segment first.anchorTurn rest =
        .ok ((Blocks.cutFrom (joinsSegment stride) segment rest).filterMap representative) := by
  induction rest with
  | nil =>
    intro segment first hfirst
    have hne : segment ≠ [] := by
      rintro rfl
      cases hfirst
    obtain ⟨row, hrow, hrepresentative⟩ := longestAnchor_of_ne_nil hne
    rw [collapseRun, if_neg hne, hrow, Blocks.cutFrom, filterMap_cons_some hrepresentative]
    rfl
  | cons row rest ih =>
    intro segment first hfirst
    have hne : segment ≠ [] := by
      rintro rfl
      cases hfirst
    obtain ⟨longest, hlongest, hrepresentative⟩ := longestAnchor_of_ne_nil hne
    have hjoins : joinsSegment stride segment row =
        decide (row.anchorTurn - first.anchorTurn < stride) := by
      rw [joinsSegment, hfirst, Option.any_some]
    rw [collapseRun, Blocks.cutFrom, hjoins]
    by_cases hlong : row.anchorTurn - first.anchorTurn ≥ stride
    · rw [if_pos hlong, if_neg (by simpa using hlong), hlongest, ok_bind, ih rfl, ok_bind,
        filterMap_cons_some hrepresentative]
      rfl
    · rw [if_neg hlong, if_pos (by simpa using hlong)]
      exact ih (by rw [List.head?_append_of_ne_nil _ hne, hfirst])

/-- Runs are collapsed into the representatives of their segments. -/
theorem collapse_eq {stride : ℤ} (hstride : 1 ≤ stride) {runs : List (List Candidate)}
    (hruns : ∀ run ∈ runs, run ≠ []) : collapse stride runs = .ok (survivorsOf stride runs) := by
  induction runs with
  | nil => rfl
  | cons run runs ih =>
    obtain ⟨hrun, hrest⟩ := forall_mem_cons.mp hruns
    cases run with
    | nil => exact absurd rfl hrun
    | cons first rest =>
      have hself : ¬ first.anchorTurn - first.anchorTurn ≥ stride := by omega
      have hopen := @collapseRun_eq stride rest [first] first rfl
      rw [collapse, List.head?_cons, orRefuse_some, ok_bind, collapseRun, if_neg hself,
        nil_append, hopen, ok_bind, ih hrest, ok_bind]
      exact congrArg Except.ok (filterMap_append (f := representative)).symm

/-! ## Counting the survivors -/

section Counts

variable {stride : ℤ} {runs : List (List Candidate)}

theorem segmentsOf_ne_nil {segment : List Candidate} (h : segment ∈ segmentsOf stride runs) :
    segment ≠ [] := by
  obtain ⟨run, -, hsegment⟩ := mem_flatMap.mp h
  exact (Blocks.isCut_cut run).nonempty segment hsegment

theorem flatten_segmentsOf : (segmentsOf stride runs).flatten = runs.flatten := by
  induction runs with
  | nil => rfl
  | cons run runs ih =>
    rw [flatten_cons, ← ih, segmentsOf, flatMap_cons, flatten_append,
      (Blocks.isCut_cut run).flatten]
    rfl

theorem survivorsOf_sublist : (survivorsOf stride runs).Sublist runs.flatten := by
  rw [← @flatten_segmentsOf stride]
  exact Blocks.filterMap_sublist_flatten fun _ _ _ h => representative_mem h

theorem length_filterMap_representative {segments : List (List Candidate)}
    (h : ∀ segment ∈ segments, segment ≠ []) :
    (segments.filterMap representative).length = segments.length := by
  induction segments with
  | nil => rfl
  | cons segment segments ih =>
    obtain ⟨hsegment, hrest⟩ := forall_mem_cons.mp h
    obtain ⟨row, -, hrow⟩ := longestAnchor_of_ne_nil hsegment
    rw [filterMap_cons_some hrow, length_cons, length_cons, ih hrest]

theorem length_survivorsOf : (survivorsOf stride runs).length = (segmentsOf stride runs).length :=
  length_filterMap_representative fun _ => segmentsOf_ne_nil

/-- Every run leaves a survivor. -/
theorem length_le_length_survivorsOf (hruns : ∀ run ∈ runs, run ≠ []) :
    runs.length ≤ (survivorsOf stride runs).length := by
  rw [length_survivorsOf]
  induction runs with
  | nil => exact Nat.le_refl 0
  | cons run runs ih =>
    obtain ⟨hrun, hrest⟩ := forall_mem_cons.mp hruns
    have hcut := length_pos_iff.mpr (@Blocks.cut_ne_nil _ (joinsSegment stride) _ hrun)
    have ih := ih hrest
    rw [segmentsOf, flatMap_cons, length_append, length_cons]
    rw [segmentsOf] at ih
    omega

end Counts

/-- The anchors of the rows never go back. -/
def Ascending (rows : List Candidate) : Prop :=
  rows.Pairwise fun row later => row.anchorTurn ≤ later.anchorTurn

theorem Ascending.head_le {rows : List Candidate} (h : Ascending rows) {first : Candidate}
    (hfirst : rows.head? = some first) (hrow : row ∈ rows) : first.anchorTurn ≤ row.anchorTurn := by
  cases rows with
  | nil => cases hfirst
  | cons =>
    cases hfirst
    rcases mem_cons.mp hrow with rfl | hrow
    · exact Int.le_refl _
    · exact (pairwise_cons.mp h).1 row hrow

theorem Ascending.le_last {rows : List Candidate} (h : Ascending rows) {last : Candidate}
    (hlast : rows.getLast? = some last) (hrow : row ∈ rows) : row.anchorTurn ≤ last.anchorTurn := by
  rw [← dropLast_append_getLast? last hlast] at h hrow
  rcases mem_append.mp hrow with hrow | hrow
  · exact (pairwise_append.mp h).2.2 row hrow last (mem_singleton_self last)
  · rw [mem_singleton.mp hrow]

/-- A run that is shorter than the stride is one segment. -/
theorem cut_of_runSpan_lt {stride : ℤ} (hrun : run ≠ []) (hascending : Ascending run)
    (hspan : runSpan run < stride) : Blocks.cut (joinsSegment stride) run = [run] := by
  apply Blocks.cut_of_joined hrun
  intro before row after heq hbefore
  obtain ⟨first, hfirst⟩ : ∃ first, before.head? = some first :=
    ⟨_, List.head?_eq_some_head hbefore⟩
  obtain ⟨last, hlast⟩ : ∃ last, run.getLast? = some last :=
    ⟨_, List.getLast?_eq_some_getLast hrun⟩
  have hhead : run.head? = some first := by
    rw [heq, List.head?_append_of_ne_nil _ hbefore, hfirst]
  have hrow : row ∈ run := by
    rw [heq]
    exact mem_append_right _ mem_cons_self
  have hle := hascending.le_last hlast hrow
  rw [runSpan, hlast, hhead, Option.elim_some, Option.elim_some] at hspan
  rw [joinsSegment, hfirst, Option.any_some, decide_eq_true_eq]
  omega

theorem segmentsOf_of_runSpan_lt {stride : ℤ} {runs : List (List Candidate)}
    (hruns : ∀ run ∈ runs, run ≠ []) (hascending : ∀ run ∈ runs, Ascending run)
    (hspan : ∀ run ∈ runs, runSpan run < stride) : segmentsOf stride runs = runs := by
  induction runs with
  | nil => rfl
  | cons run runs ih =>
    obtain ⟨hrun, hruns⟩ := forall_mem_cons.mp hruns
    obtain ⟨hfirst, hascending⟩ := forall_mem_cons.mp hascending
    obtain ⟨hshort, hspan⟩ := forall_mem_cons.mp hspan
    have ih := ih hruns hascending hspan
    rw [segmentsOf] at ih ⊢
    rw [flatMap_cons, cut_of_runSpan_lt hrun hfirst hshort, ih]
    rfl

/-- Every row has the representative of its segment near it, in its run. -/
theorem exists_near_survivor {stride : ℤ} (hstride : 1 ≤ stride) {runs : List (List Candidate)}
    (hascending : ∀ run ∈ runs, Ascending run) (hrun : run ∈ runs) (hrow : row ∈ run) :
    ∃ survivor ∈ survivorsOf stride runs, survivor ∈ run ∧
      |row.anchorTurn - survivor.anchorTurn| < stride := by
  have hcut := @Blocks.isCut_cut _ (joinsSegment stride) run
  have hmem := hrow
  rw [← hcut.flatten] at hmem
  obtain ⟨segment, hsegment, hrowSegment⟩ := mem_flatten.mp hmem
  obtain ⟨survivor, -, hsurvivor⟩ := longestAnchor_of_ne_nil (hcut.nonempty segment hsegment)
  have hsurvivorSegment := representative_mem hsurvivor
  obtain ⟨first, hfirst⟩ : ∃ first, segment.head? = some first :=
    ⟨_, List.head?_eq_some_head (hcut.nonempty segment hsegment)⟩
  have hsub : segment.Sublist run := by
    have := sublist_flatten_of_mem hsegment
    rwa [hcut.flatten] at this
  have hsorted : Ascending segment := (hascending run hrun).sublist hsub
  -- a member is the first one of its segment or joined it
  have hnear : ∀ member ∈ segment, member.anchorTurn - first.anchorTurn < stride := by
    intro member hmember
    obtain ⟨before, after, heq⟩ := append_of_mem hmember
    cases before with
    | nil =>
      rw [heq, nil_append, List.head?_cons] at hfirst
      cases hfirst
      omega
    | cons =>
      have hjoins := hcut.joined segment hsegment _ member after heq (cons_ne_nil _ _)
      rw [heq, cons_append, List.head?_cons] at hfirst
      cases hfirst
      exact of_decide_eq_true hjoins
  have hlow := hsorted.head_le hfirst hrowSegment
  have hlow' := hsorted.head_le hfirst hsurvivorSegment
  have hhigh := hnear row hrowSegment
  have hhigh' := hnear survivor hsurvivorSegment
  refine ⟨survivor, ?_, hsub.subset hsurvivorSegment, abs_lt.mpr ⟨by omega, by omega⟩⟩
  exact mem_filterMap.mpr ⟨segment, mem_flatMap.mpr ⟨run, hrun, hsegment⟩, hsurvivor⟩

/-! ## The search for a stride -/

/-- The smallest stride from the floor on whose survivors fit the budget. -/
structure LeastStride (budget strideFloor : ℤ) (runs : List (List Candidate)) (stride : ℤ)
    (survivors : List Candidate) : Prop where
  floor : strideFloor ≤ stride
  collapsed : collapse stride runs = .ok survivors
  fits : survivors.length ≤ budget
  least : ∀ smaller, strideFloor ≤ smaller → smaller < stride →
    ∃ more, collapse smaller runs = .ok more ∧ budget < more.length

/-- A stride that is too small is passed over. -/
theorem LeastStride.of_succ {runs : List (List Candidate)} {stride : ℤ} {more : List Candidate}
    (h : LeastStride budget (strideFloor + 1) runs stride survivors)
    (hmore : collapse strideFloor runs = .ok more) (hlarge : budget < more.length) :
    LeastStride budget strideFloor runs stride survivors where
  floor := by have := h.floor; omega
  collapsed := h.collapsed
  fits := h.fits
  least := by
    intro smaller hsmaller hlt
    rcases eq_or_lt_of_le hsmaller with rfl | hsmaller
    · exact ⟨more, hmore, hlarge⟩
    · exact h.least smaller hsmaller hlt

/-- The search ends where every run is one segment: the induction is on how far the stride
is from there. -/
theorem exists_fitStride {longestSpan : ℤ} {runs : List (List Candidate)}
    (hruns : ∀ run ∈ runs, run ≠ []) (hascending : ∀ run ∈ runs, Ascending run)
    (hspan : ∀ run ∈ runs, runSpan run ≤ longestSpan) (hfew : runs.length ≤ budget) :
    ∀ (distance : Nat) {stride : ℤ}, 1 ≤ stride → (longestSpan + 1 - stride).toNat = distance →
      ∃ chosen survivors, fitStride budget runs longestSpan stride = .ok (chosen, survivors) ∧
        LeastStride budget stride runs chosen survivors := by
  intro distance
  induction distance with
  | zero =>
    intro stride hstride hdistance
    have hcollapse := collapse_eq hstride hruns
    have hshort : ∀ run ∈ runs, runSpan run < stride := by
      intro run hrun
      have := hspan run hrun
      omega
    have hcount : (survivorsOf stride runs).length = runs.length := by
      rw [length_survivorsOf, segmentsOf_of_runSpan_lt hruns hascending hshort]
    have hfits : ((survivorsOf stride runs).length : ℤ) ≤ budget := by omega
    refine ⟨stride, _, ?_, ⟨Int.le_refl _, hcollapse, hfits, fun _ h hlt => absurd hlt (not_lt.mpr h)⟩⟩
    rw [fitStride, hcollapse, ok_bind, if_pos hfits]
    rfl
  | succ distance ih =>
    intro stride hstride hdistance
    have hcollapse := collapse_eq hstride hruns
    by_cases hfits : ((survivorsOf stride runs).length : ℤ) ≤ budget
    · refine ⟨stride, _, ?_, ⟨Int.le_refl _, hcollapse, hfits, fun _ h hlt => absurd hlt (not_lt.mpr h)⟩⟩
      rw [fitStride, hcollapse, ok_bind, if_pos hfits]
      rfl
    · have hlong : ¬ stride > longestSpan := by omega
      obtain ⟨chosen, survivors, hfit, hleast⟩ :=
        @ih (stride + 1) (by omega) (by omega)
      refine ⟨chosen, survivors, ?_, hleast.of_succ hcollapse (not_le.mp hfits)⟩
      rw [fitStride, hcollapse, ok_bind, if_neg hfits, if_neg hlong, hfit]

/-! ## The search for a gap -/

/-- A gap at which there are no more runs than the budget admits. -/
def Fits (budget : ℤ) (kept : List Candidate) (gap : ℤ) : Prop := (runsAt gap kept).length ≤ budget

/-- The smallest of them up to the maximum. -/
structure LeastGap (budget maxGap : ℤ) (kept : List Candidate) (gap : ℤ) : Prop where
  positive : 1 ≤ gap
  bounded : gap ≤ maxGap
  fits : Fits budget kept gap
  least : ∀ smaller, 1 ≤ smaller → smaller < gap → ¬ Fits budget kept smaller

theorem ascending_of_mem_runsAt (hascending : Ascending kept) (hrun : run ∈ runsAt gap kept) :
    Ascending run := by
  have hsub := sublist_flatten_of_mem hrun
  rw [(isCut_runsAt gap kept).flatten] at hsub
  exact hascending.sublist hsub

/-- Where a gap fits, the stride is searched for and found. -/
theorem exists_fitGap_of_fits (hkept : kept ≠ []) (hascending : Ascending kept)
    (hfloor : 1 ≤ strideFloor) (hfits : Fits budget kept gap) (gaps : List ℤ) :
    ∃ stride survivors, fitGap budget strideFloor kept (gap :: gaps) =
        .ok (some ⟨gap, stride, survivors⟩) ∧
      LeastStride budget strideFloor (runsAt gap kept) stride survivors := by
  have hcut := isCut_runsAt gap kept
  have hruns : runsAt gap kept ≠ [] := by
    intro hnil
    have hflatten := hcut.flatten
    rw [hnil] at hflatten
    exact hkept hflatten.symm
  obtain ⟨longestSpan, hlongest⟩ : ∃ span, ((runsAt gap kept).map runSpan).max? = some span := by
    cases hspans : (runsAt gap kept).map runSpan with
    | nil => exact absurd (map_eq_nil_iff.mp hspans) hruns
    | cons => exact ⟨_, List.max?_cons'⟩
  have hspan : ∀ run ∈ runsAt gap kept, runSpan run ≤ longestSpan := fun run hrun =>
    (List.max?_eq_some_iff.mp hlongest).2 _ (mem_map_of_mem hrun)
  obtain ⟨stride, survivors, hfit, hleast⟩ := exists_fitStride hcut.nonempty
    (fun _ => ascending_of_mem_runsAt hascending) hspan hfits _ hfloor rfl
  refine ⟨stride, survivors, ?_, hleast⟩
  rw [fitGap, if_neg (not_lt.mpr hfits), hlongest, orRefuse_some, ok_bind, hfit, ok_bind]
  rfl

theorem fitGap_skip {budget strideFloor : ℤ} {kept : List Candidate} {before : List ℤ}
    (h : ∀ gap ∈ before, ¬ Fits budget kept gap) (gaps : List ℤ) :
    fitGap budget strideFloor kept (before ++ gaps) = fitGap budget strideFloor kept gaps := by
  induction before with
  | nil => rfl
  | cons gap before ih =>
    obtain ⟨hgap, hbefore⟩ := forall_mem_cons.mp h
    rw [cons_append, fitGap, if_pos (not_le.mp hgap), ih hbefore]

theorem mem_gapsTo : gap ∈ gapsTo maxGap ↔ 1 ≤ gap ∧ gap ≤ maxGap := by
  unfold gapsTo
  rw [mem_map]
  constructor
  · rintro ⟨n, hn, rfl⟩
    rw [mem_range] at hn
    omega
  · rintro ⟨hlow, hhigh⟩
    exact ⟨(gap - 1).toNat, by rw [mem_range]; omega, by omega⟩

/-- The gaps up to a maximum are those below one of them, it, and those above. -/
theorem exists_split_gapsTo (hlow : 1 ≤ gap) (hhigh : gap ≤ maxGap) :
    ∃ before after, gapsTo maxGap = before ++ gap :: after ∧ ∀ g ∈ before, 1 ≤ g ∧ g < gap := by
  obtain ⟨before, after, hsplit⟩ := append_of_mem (mem_gapsTo.mpr ⟨hlow, hhigh⟩)
  refine ⟨before, after, hsplit, fun g hg => ?_⟩
  have hmem : g ∈ gapsTo maxGap := hsplit ▸ mem_append_left _ hg
  have hsorted : (gapsTo maxGap).Pairwise (· < ·) := by
    unfold gapsTo
    rw [pairwise_map]
    exact pairwise_lt_range.imp fun h => by omega
  rw [hsplit] at hsorted
  exact ⟨(mem_gapsTo.mp hmem).1, (pairwise_append.mp hsorted).2.2 g hg gap mem_cons_self⟩

/-- The search finds the least gap that fits. -/
theorem exists_fitGap (hkept : kept ≠ []) (hascending : Ascending kept) (hfloor : 1 ≤ strideFloor)
    (h : ∃ gap, 1 ≤ gap ∧ gap ≤ maxGap ∧ Fits budget kept gap) :
    ∃ gap stride survivors, fitGap budget strideFloor kept (gapsTo maxGap) =
        .ok (some ⟨gap, stride, survivors⟩) ∧
      LeastGap budget maxGap kept gap ∧
      LeastStride budget strideFloor (runsAt gap kept) stride survivors := by
  have hbounded : ∃ low : ℤ, ∀ gap : ℤ, (1 ≤ gap ∧ gap ≤ maxGap ∧ Fits budget kept gap) → low ≤ gap :=
    ⟨1, fun _ hgap => hgap.1⟩
  obtain ⟨gap, ⟨hlow, hhigh, hfits⟩, hleast⟩ := Int.exists_least_of_bdd hbounded h
  have hsmaller : ∀ smaller, 1 ≤ smaller → smaller < gap → ¬ Fits budget kept smaller :=
    fun smaller hsmaller hlt hfits =>
      absurd (hleast smaller ⟨hsmaller, by omega, hfits⟩) (not_le.mpr hlt)
  obtain ⟨before, after, hsplit, hbefore⟩ := exists_split_gapsTo hlow hhigh
  obtain ⟨stride, survivors, hfit, hstride⟩ :=
    exists_fitGap_of_fits hkept hascending hfloor hfits after
  refine ⟨gap, stride, survivors, ?_, ⟨hlow, hhigh, hfits, hsmaller⟩, hstride⟩
  rw [hsplit, fitGap_skip fun g hg => hsmaller g (hbefore g hg).1 (hbefore g hg).2, hfit]

/-! ## The decisions -/

/-- The decisions are one for each candidate. -/
structure Covers (candidates : List Candidate) (decisions : List Decision) : Prop where
  keys : ∀ row ∈ decisions, ∀ key, key ∈ row.keys ↔ key = "candidate_id" ∨ key = "verdict"
  verdicts : ∀ row ∈ decisions, row.verdict = "KEEP" ∨ row.verdict = "ABSTAIN"
  once : (decisions.map Decision.candidateId).Nodup
  ids : ∀ id, id ∈ decisions.map Decision.candidateId ↔ id ∈ candidates.map Candidate.candidateId

/-- The candidates that the decisions keep. -/
def keptBy (decisions : List Decision) (candidates : List Candidate) : List Candidate :=
  candidates.filter fun row =>
    decisions.any fun decision => decision.candidateId == row.candidateId && decision.verdict == "KEEP"

def verdictsOf (decisions : List Decision) : List (String × String) :=
  decisions.map fun row => (row.candidateId, row.verdict)

theorem fst_verdictsOf (decisions : List Decision) :
    (verdictsOf decisions).map Prod.fst = decisions.map Decision.candidateId := by
  unfold verdictsOf
  rw [map_map]
  rfl

theorem byId_isSome {candidates : List Candidate} {id : String}
    (h : id ∈ candidates.map Candidate.candidateId) : (byId candidates id).isSome = true := by
  obtain ⟨row, hrow, rfl⟩ := mem_map.mp h
  exact List.find?_isSome.mpr ⟨row, mem_reverse.mpr hrow, beq_self_eq_true _⟩

theorem byId_eq_some {candidates : List Candidate}
    (hids : (candidates.map Candidate.candidateId).Nodup) {id : String} :
    byId candidates id = some row ↔ row ∈ candidates ∧ row.candidateId = id := by
  unfold byId
  constructor
  · intro h
    exact ⟨mem_reverse.mp (mem_of_find?_eq_some h), by simpa using List.find?_some h⟩
  · rintro ⟨hrow, rfl⟩
    obtain ⟨other, hother⟩ := Option.isSome_iff_exists.mp (byId_isSome (mem_map_of_mem hrow))
    have hmem := mem_reverse.mp (mem_of_find?_eq_some hother)
    have hid : other.candidateId = row.candidateId := by simpa using List.find?_some hother
    rwa [← inj_on_of_nodup_map hids hmem hrow hid] at hother ⊢

theorem readVerdicts_eq {candidates : List Candidate} {decisions : List Decision}
    (hvalid : ∀ row ∈ decisions, row.invalid candidates = false) :
    ∀ {verdicts : List (String × String)},
      (verdicts.map Prod.fst ++ decisions.map Decision.candidateId).Nodup →
        readVerdicts candidates verdicts decisions = .ok (verdicts ++ verdictsOf decisions) := by
  induction decisions with
  | nil => exact fun _ => by rw [readVerdicts, verdictsOf, map_nil, append_nil]
  | cons row rest ih =>
    intro verdicts hnodup
    obtain ⟨hrow, hrest⟩ := forall_mem_cons.mp hvalid
    have hnew : row.candidateId ∉ verdicts.map Prod.fst := fun hmem =>
      (nodup_append.mp hnodup).2.2 _ hmem _ mem_cons_self rfl
    have ih := @ih hrest (verdicts ++ [(row.candidateId, row.verdict)]) (by simpa using hnodup)
    rw [readVerdicts, refuseIf_of_not (by simp [hrow]), ok_bind, refuseIf_of_not hnew, ok_bind, ih,
      append_assoc]
    rfl

section Covered

variable {candidates : List Candidate} {decisions : List Decision}

theorem Covers.not_invalid (h : Covers candidates decisions) {row : Decision}
    (hrow : row ∈ decisions) : row.invalid candidates = false := by
  have hkeys := h.keys row hrow
  have hfound := byId_isSome ((h.ids _).mp (mem_map_of_mem hrow))
  simp only [Decision.invalid, Bool.or_eq_false_iff, Bool.not_eq_false', Option.isNone_eq_false_iff]
  refine ⟨⟨⟨?_, ?_⟩, ?_⟩, hfound⟩
  · rw [all_eq_true]
    intro key hkey
    simpa using (hkeys key).mp hkey
  · simp [(hkeys _).mpr]
  · simpa using h.verdicts row hrow

/-- The rows that are kept, sorted by ordinal, are the kept candidates as they stand. -/
theorem keptOf_eq (hids : (candidates.map Candidate.candidateId).Nodup)
    (hordinals : (candidates.map Candidate.ordinal).Pairwise (· < ·))
    (h : Covers candidates decisions) :
    keptOf candidates (verdictsOf decisions) = keptBy decisions candidates := by
  have hordinals := pairwise_map.mp hordinals
  have hmem : ∀ row, row ∈ ((verdictsOf decisions).filter fun verdict => verdict.2 == "KEEP").filterMap
      (fun verdict => byId candidates verdict.1) ↔ row ∈ keptBy decisions candidates := by
    intro row
    simp only [mem_filterMap, mem_filter, keptBy, verdictsOf, mem_map,
      byId_eq_some hids, any_eq_true, Bool.and_eq_true, beq_iff_eq]
    constructor
    · rintro ⟨_, ⟨⟨decision, hdecision, rfl⟩, hkeep⟩, hrow, hid⟩
      exact ⟨hrow, decision, hdecision, hid.symm, hkeep⟩
    · rintro ⟨hrow, decision, hdecision, hid, hkeep⟩
      exact ⟨_, ⟨⟨decision, hdecision, rfl⟩, hkeep⟩, hrow, hid.symm⟩
  have hnodup : (((verdictsOf decisions).filter fun verdict => verdict.2 == "KEEP").filterMap
      fun verdict => byId candidates verdict.1).Nodup := by
    have hverdicts : (verdictsOf decisions).Pairwise fun a b => a.1 ≠ b.1 := by
      have := h.once
      rw [← fst_verdictsOf] at this
      exact pairwise_map.mp this
    rw [List.Nodup, pairwise_filterMap]
    refine (hverdicts.filter _).imp fun hne row hrow other hother heq => hne ?_
    rw [← ((byId_eq_some hids).mp hrow).2, ← ((byId_eq_some hids).mp hother).2, heq]
  have hperm := (perm_ext_iff_of_nodup hnodup
    ((hids.of_map _).filter _)).mpr hmem
  have hsorted : (keptBy decisions candidates).Pairwise fun a b => a.ordinal ≤ b.ordinal :=
    (hordinals.filter _).imp fun hlt => le_of_lt hlt
  unfold keptOf
  refine ((perm_insertionSort _ _).trans hperm).eq_of_pairwise ?_
    (pairwise_insertionSort _ _) hsorted
  intro a b ha hb hab hba
  have hinj : ∀ a ∈ candidates, ∀ b ∈ candidates, a.ordinal = b.ordinal → a = b := by
    have hnodup : (candidates.map Candidate.ordinal).Nodup :=
      (pairwise_map.mpr hordinals).imp fun hlt => ne_of_lt hlt
    exact fun a ha b hb => inj_on_of_nodup_map hnodup ha hb
  have ha : a ∈ keptBy decisions candidates :=
    (hmem a).mp ((mem_insertionSort _).mp ha)
  exact hinj a (mem_filter.mp ha).1 b (mem_filter.mp hb).1 (le_antisymm hab hba)

theorem pruneKeeps_eq (hids : (candidates.map Candidate.candidateId).Nodup)
    (hordinals : (candidates.map Candidate.ordinal).Pairwise (· < ·))
    (h : Covers candidates decisions) (budget strideFloor maxGap : ℤ) :
    pruneKeeps candidates decisions budget strideFloor maxGap =
      pruneKept decisions.length (keptBy decisions candidates) budget strideFloor maxGap := by
  have hread := @readVerdicts_eq candidates decisions (fun _ => h.not_invalid) [] h.once
  have hcovered : (∀ row ∈ candidates, row.candidateId ∈ (verdictsOf decisions).map Prod.fst) ∧
      ∀ id ∈ (verdictsOf decisions).map Prod.fst, id ∈ candidates.map Candidate.candidateId := by
    rw [fst_verdictsOf]
    exact ⟨fun row hrow => (h.ids _).mpr (mem_map_of_mem hrow), fun id hid => (h.ids id).mp hid⟩
  rw [pruneKeeps, hread, ok_bind, nil_append, refuseIf_of_not (not_not.mpr hcovered), ok_bind,
    keptOf_eq hids hordinals h, verdictsOf, length_map]

end Covered

/-! ## What is returned -/

/-- What pruning returns of what was kept: the survivors, and the gap and the stride that
the budget chose. -/
structure Prunes (budget strideFloor maxGap : ℤ) (kept : List Candidate) (result : Pruned)
    (survivors : List Candidate) : Prop where
  ids : result.prunedCandidateIds = survivors.map Candidate.candidateId
  count : result.prunedKeep = survivors.length
  sublist : survivors.Sublist kept
  ordered : (survivors.map Candidate.ordinal).Pairwise (· < ·)
  nothing : kept = [] → survivors = [] ∧ result.fittedGap = none ∧ result.fittedStride = none
  fitted : kept ≠ [] → (∃ gap, 1 ≤ gap ∧ gap ≤ maxGap ∧ Fits budget kept gap) →
    ∃ gap stride, result.fittedGap = some gap ∧ result.fittedStride = some stride ∧
      LeastGap budget maxGap kept gap ∧
      LeastStride budget strideFloor (runsAt gap kept) stride survivors ∧
      ∀ run ∈ runsAt gap kept, ∀ row ∈ run,
        ∃ survivor ∈ survivors, survivor ∈ run ∧ |row.anchorTurn - survivor.anchorTurn| < stride
  unfitted : (¬ ∃ gap, 1 ≤ gap ∧ gap ≤ maxGap ∧ Fits budget kept gap) →
    result.fittedGap = none ∧ budget < survivors.length

/-- The survivors of runs are rows of the runs. -/
theorem LeastStride.survivors_eq {stride : ℤ} (hfloor : 1 ≤ strideFloor)
    (h : LeastStride budget strideFloor (runsAt gap kept) stride survivors) :
    survivors = survivorsOf stride (runsAt gap kept) ∧ survivors.Sublist kept := by
  have hcut := isCut_runsAt gap kept
  have hcollapse := h.collapsed
  rw [collapse_eq (hfloor.trans h.floor) hcut.nonempty, Except.ok.injEq] at hcollapse
  refine ⟨hcollapse.symm, ?_⟩
  have hsub := @survivorsOf_sublist stride (runsAt gap kept)
  rwa [hcollapse, hcut.flatten] at hsub

theorem pruneKept_fitted (hkept : kept ≠ []) {fit : Fitted}
    (hfit : fitGap budget strideFloor kept (gapsTo maxGap) = .ok (some fit)) (decisions : Nat) :
    pruneKept decisions kept budget strideFloor maxGap =
      .ok ⟨decisions, kept.length, (runsAt fit.gap kept).length, fit.survivors.length, some fit.gap,
        some fit.stride, fit.survivors.map Candidate.candidateId⟩ := by
  rw [pruneKept, if_neg hkept, hfit, ok_bind]
  rfl

theorem pruneKept_unfitted (hkept : kept ≠ [])
    (hfit : fitGap budget strideFloor kept (gapsTo maxGap) = .ok none)
    (hcollapse : collapse strideFloor (runsAt maxGap kept) = .ok survivors) (decisions : Nat) :
    pruneKept decisions kept budget strideFloor maxGap =
      .ok ⟨decisions, kept.length, (runsAt maxGap kept).length, survivors.length, none, none,
        survivors.map Candidate.candidateId⟩ := by
  rw [pruneKept, if_neg hkept, hfit, ok_bind, hcollapse]
  dsimp only
  rw [if_neg hkept, ok_bind, if_neg hkept]
  rfl

theorem prunes_nil (hbudget : 1 ≤ budget) (hgap : 1 ≤ maxGap) (strideFloor : ℤ) (decisions : Nat) :
    Prunes budget strideFloor maxGap [] ⟨decisions, 0, 0, 0, none, none, []⟩ [] where
  ids := rfl
  count := rfl
  sublist := .slnil
  ordered := .nil
  nothing := fun _ => ⟨rfl, rfl, rfl⟩
  fitted := fun h => absurd rfl h
  unfitted := by
    have hfits : Fits budget [] 1 := by
      rw [Fits, runsAt, runsFrom, length_nil]
      omega
    exact fun h => absurd ⟨1, Int.le_refl 1, hgap, hfits⟩ h

theorem exists_prunes (hordinals : (kept.map Candidate.ordinal).Pairwise (· < ·))
    (hascending : Ascending kept) (hbudget : 1 ≤ budget) (hfloor : 1 ≤ strideFloor)
    (hgap : 1 ≤ maxGap) (decisions : Nat) :
    ∃ result survivors, pruneKept decisions kept budget strideFloor maxGap = .ok result ∧
      Prunes budget strideFloor maxGap kept result survivors := by
  by_cases hkept : kept = []
  · subst hkept
    exact ⟨_, [], rfl, prunes_nil hbudget hgap strideFloor decisions⟩
  have hsorted : ∀ {survivors : List Candidate}, survivors.Sublist kept →
      (survivors.map Candidate.ordinal).Pairwise (· < ·) :=
    fun hsub => hordinals.sublist (hsub.map _)
  by_cases hfits : ∃ gap, 1 ≤ gap ∧ gap ≤ maxGap ∧ Fits budget kept gap
  · obtain ⟨gap, stride, survivors, hfit, hleast, hstride⟩ :=
      exists_fitGap hkept hascending hfloor hfits
    obtain ⟨hsurvivors, hsub⟩ := hstride.survivors_eq hfloor
    have hnear : ∀ run ∈ runsAt gap kept, ∀ row ∈ run, ∃ survivor ∈ survivors,
        survivor ∈ run ∧ |row.anchorTurn - survivor.anchorTurn| < stride := by
      intro run hrun row hrow
      rw [hsurvivors]
      exact exists_near_survivor (hfloor.trans hstride.floor)
        (fun _ => ascending_of_mem_runsAt hascending) hrun hrow
    exact ⟨_, survivors, pruneKept_fitted hkept hfit decisions, rfl, rfl, hsub, hsorted hsub,
      fun h => absurd h hkept, fun _ _ => ⟨gap, stride, rfl, rfl, hleast, hstride, hnear⟩,
      fun h => absurd hfits h⟩
  · have hcut := isCut_runsAt maxGap kept
    have hnone : fitGap budget strideFloor kept (gapsTo maxGap) = .ok none := by
      have hskip : ∀ gap ∈ gapsTo maxGap, ¬ Fits budget kept gap := fun gap hmem hfit =>
        hfits ⟨gap, (mem_gapsTo.mp hmem).1, (mem_gapsTo.mp hmem).2, hfit⟩
      have h := @fitGap_skip budget strideFloor kept _ hskip []
      rwa [append_nil] at h
    have hcollapse := collapse_eq hfloor hcut.nonempty
    have hsub : (survivorsOf strideFloor (runsAt maxGap kept)).Sublist kept := by
      have h := @survivorsOf_sublist strideFloor (runsAt maxGap kept)
      rwa [hcut.flatten] at h
    -- every run leaves a survivor, and there are too many runs
    have hlarge : budget < (survivorsOf strideFloor (runsAt maxGap kept)).length := by
      have hmany : ¬ Fits budget kept maxGap := fun h => hfits ⟨maxGap, hgap, Int.le_refl _, h⟩
      have hcount := @length_le_length_survivorsOf strideFloor _ hcut.nonempty
      have := not_le.mp hmany
      omega
    exact ⟨_, _, pruneKept_unfitted hkept hnone hcollapse decisions, rfl, rfl, hsub, hsorted hsub,
      fun h => absurd h hkept, fun _ h => absurd h hfits, fun _ => ⟨rfl, hlarge⟩⟩

/-- A candidate of the second turn. -/
def secondTurn : Candidate := ⟨"c-1", 1, "sf-1", 2, 0, 40, none, none, none, ["sf-1"]⟩

def keepRow (verdict : String) : Decision := ⟨["candidate_id", "verdict"], "c-1", verdict⟩

theorem covers_keepRow {verdict : String} (h : verdict = "KEEP" ∨ verdict = "ABSTAIN") :
    Covers [secondTurn] [keepRow verdict] := by
  refine ⟨?_, ?_, by simp, by simp [keepRow, secondTurn]⟩
  · intro row hrow
    rw [mem_singleton.mp hrow]
    simp [keepRow]
  · intro row hrow
    rw [mem_singleton.mp hrow]
    exact h

end YawnApp.Notes
