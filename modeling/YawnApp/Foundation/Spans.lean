import Mathlib.Data.List.Sort
import Mathlib.MeasureTheory.Measure.Lebesgue.Basic

set_option autoImplicit false

/-!
# Spans of time

Two sweeps over spans of rational times that are sorted by where they start.  The
first adds up the length of what the spans cover; it is the Lebesgue measure of their
union.  The second keeps the latest end of every label and tells whether two spans of
different labels share time.

Touching spans share no time: a span has its end and not its start.
-/

namespace YawnApp.Foundation

namespace Spans

open List

/-! ## The length of a union -/

/-- The order of pairs. -/
def pairLe (a b : ℚ × ℚ) : Prop := a.1 < b.1 ∨ (a.1 = b.1 ∧ a.2 ≤ b.2)

instance : DecidableRel pairLe := fun a b =>
  inferInstanceAs (Decidable (a.1 < b.1 ∨ (a.1 = b.1 ∧ a.2 ≤ b.2)))

instance : Std.Total pairLe := ⟨fun a b => by
  unfold pairLe
  rcases lt_trichotomy a.1 b.1 with h | h | h
  · exact .inl (.inl h)
  · rcases le_total a.2 b.2 with hle | hle
    · exact .inl (.inr ⟨h, hle⟩)
    · exact .inr (.inr ⟨h.symm, hle⟩)
  · exact .inr (.inl h)⟩

instance : IsTrans (ℚ × ℚ) pairLe := ⟨fun a b c hab hbc => by
  unfold pairLe at *
  rcases hab with hab | ⟨hab, hle⟩
  · rcases hbc with hbc | ⟨hbc, -⟩
    · exact .inl (hab.trans hbc)
    · exact .inl (hbc ▸ hab)
  · rcases hbc with hbc | ⟨hbc, hle'⟩
    · exact .inl (hab ▸ hbc)
    · exact .inr ⟨hab.trans hbc, hle.trans hle'⟩⟩

/-- The sweep: what is added up, the span it is in, and the spans to come. -/
def mergeFrom : ℚ → ℚ × ℚ → List (ℚ × ℚ) → ℚ
  | total, (low, high), [] => total + (high - low)
  | total, (low, high), (start, stop) :: rest =>
    if start > high then mergeFrom (total + (high - low)) (start, stop) rest
    else mergeFrom total (low, max high stop) rest

/-- The length of what the spans cover. -/
def unionLength (ranges : List (ℚ × ℚ)) : ℚ :=
  match ranges.insertionSort pairLe with
  | [] => 0
  | first :: rest => mergeFrom 0 first rest

/-- The times that lie in one of the spans. -/
def cover (ranges : List (ℚ × ℚ)) : Set ℝ :=
  {x | ∃ r ∈ ranges, (r.1 : ℝ) < x ∧ x ≤ r.2}

theorem cover_nil : cover [] = ∅ := by
  ext x
  simp [cover]

theorem cover_cons (r : ℚ × ℚ) (ranges : List (ℚ × ℚ)) :
    cover (r :: ranges) = Set.Ioc (r.1 : ℝ) r.2 ∪ cover ranges := by
  ext x
  simp [cover]

theorem cover_perm {first second : List (ℚ × ℚ)} (h : first.Perm second) :
    cover first = cover second := by
  ext x
  simp [cover, h.mem_iff]

theorem mergeFrom_total (total : ℚ) (current : ℚ × ℚ) (rest : List (ℚ × ℚ)) :
    mergeFrom total current rest = total + mergeFrom 0 current rest := by
  induction rest generalizing total current with
  | nil =>
    obtain ⟨low, high⟩ := current
    simp [mergeFrom]
  | cons r rest ih =>
    obtain ⟨low, high⟩ := current
    obtain ⟨start, stop⟩ := r
    unfold mergeFrom
    split
    · rw [ih (total + (high - low)), ih (0 + (high - low))]
      ring
    · exact ih total (low, max high stop)

/-- A span that starts inside another one lengthens it. -/
theorem Ioc_union_of_le {low high start stop : ℝ} (hlow : low ≤ start) (hstart : start ≤ high) :
    Set.Ioc low high ∪ Set.Ioc start stop = Set.Ioc low (max high stop) := by
  have hfirst : min low high ≤ max start stop :=
    (min_le_left _ _).trans (hlow.trans (le_max_left _ _))
  have hsecond : min start stop ≤ max low high :=
    (min_le_left _ _).trans (hstart.trans (le_max_right _ _))
  rw [Set.Ioc_union_Ioc hfirst hsecond, min_eq_left hlow]

theorem mergeFrom_volume {current : ℚ × ℚ} {rest : List (ℚ × ℚ)} (hcurrent : current.1 ≤ current.2)
    (hafter : ∀ r ∈ rest, current.1 ≤ r.1) (hrest : ∀ r ∈ rest, r.1 ≤ r.2)
    (hsorted : rest.Pairwise fun a b => a.1 ≤ b.1) :
    0 ≤ mergeFrom 0 current rest ∧
      MeasureTheory.volume (cover (current :: rest)) =
        ENNReal.ofReal (mergeFrom 0 current rest : ℚ) := by
  induction rest generalizing current with
  | nil =>
    obtain ⟨low, high⟩ := current
    rw [cover_cons, cover_nil, Set.union_empty, Real.volume_Ioc]
    simpa [mergeFrom] using hcurrent
  | cons r rest ih =>
    obtain ⟨low, high⟩ := current
    obtain ⟨start, stop⟩ := r
    have hwidth : start ≤ stop := hrest _ mem_cons_self
    have hlow : low ≤ start := hafter _ mem_cons_self
    obtain ⟨hfirst, hsorted⟩ := pairwise_cons.mp hsorted
    have hrest : ∀ r ∈ rest, r.1 ≤ r.2 := fun r hr => hrest r (mem_cons_of_mem _ hr)
    unfold mergeFrom
    split
    · rename_i hgap
      obtain ⟨hpositive, hvolume⟩ := @ih (start, stop) hwidth hfirst hrest hsorted
      have hlength : (0 : ℚ) ≤ high - low := sub_nonneg.mpr hcurrent
      have hdisjoint : Disjoint (Set.Ioc (low : ℝ) high) (cover ((start, stop) :: rest)) := by
        rw [Set.disjoint_left]
        rintro x ⟨-, hx⟩ ⟨r, hr, hrx, -⟩
        have hstart : start ≤ r.1 := by
          rcases mem_cons.mp hr with rfl | hr
          · exact le_refl _
          · exact hfirst r hr
        have hhigh : (high : ℝ) < r.1 := by exact_mod_cast lt_of_lt_of_le hgap hstart
        exact absurd (hrx.trans_le hx) (not_lt.mpr hhigh.le)
      have hmeasurable : MeasurableSet (Set.Ioc (low : ℝ) high) := measurableSet_Ioc
      rw [mergeFrom_total, cover_cons, MeasureTheory.measure_union' hdisjoint hmeasurable, hvolume,
        Real.volume_Ioc]
      refine ⟨by linarith, ?_⟩
      rw [← ENNReal.ofReal_add (by exact_mod_cast hlength) (by exact_mod_cast hpositive)]
      push_cast
      ring_nf
    · rename_i hinside
      have hunion := @Ioc_union_of_le low high start stop (by exact_mod_cast hlow)
        (by exact_mod_cast not_lt.mp hinside)
      have hgrown : low ≤ max high stop := hcurrent.trans (le_max_left _ _)
      have hafter : ∀ r ∈ rest, low ≤ r.1 := fun r hr => hlow.trans (hfirst r hr)
      obtain ⟨hpositive, hvolume⟩ := @ih (low, max high stop) hgrown hafter hrest hsorted
      refine ⟨hpositive, ?_⟩
      rw [cover_cons, cover_cons, ← Set.union_assoc, hunion, ← hvolume, cover_cons]
      push_cast
      rfl

/-- The sweep measures the union. -/
theorem volume_cover {ranges : List (ℚ × ℚ)} (h : ∀ r ∈ ranges, r.1 ≤ r.2) :
    MeasureTheory.volume (cover ranges) = ENNReal.ofReal (unionLength ranges : ℚ) := by
  have hperm := perm_insertionSort pairLe ranges
  have hsorted := pairwise_insertionSort pairLe ranges
  rw [← cover_perm hperm]
  unfold unionLength
  cases hlist : ranges.insertionSort pairLe with
  | nil =>
    rw [cover_nil]
    simp
  | cons first rest =>
    rw [hlist] at hperm hsorted
    have hall : ∀ r ∈ first :: rest, r.1 ≤ r.2 := fun r hr => h r (hperm.mem_iff.mp hr)
    have hstarts : ∀ {a b : ℚ × ℚ}, pairLe a b → a.1 ≤ b.1 := by
      rintro a b (hlt | ⟨heq, -⟩)
      · exact hlt.le
      · exact heq.le
    obtain ⟨hfirst, hrest⟩ := pairwise_cons.mp hsorted
    exact (mergeFrom_volume (hall _ mem_cons_self) (fun r hr => hstarts (hfirst r hr))
      (fun r hr => hall r (mem_cons_of_mem _ hr)) (hrest.imp hstarts)).2

/-! ## Time that labels share -/

section Labels

variable {κ : Type} [DecidableEq κ]

structure Span (κ : Type) where
  start : ℚ
  stop : ℚ
  label : κ
deriving DecidableEq

/-- The two spans share time. -/
def Span.meets (a b : Span κ) : Prop := max a.start b.start < min a.stop b.stop

instance (a b : Span κ) : Decidable (a.meets b) :=
  inferInstanceAs (Decidable (max a.start b.start < min a.stop b.stop))

/-- The latest end of a label, raised. -/
def raise (label : κ) (stop : ℚ) : List (κ × ℚ) → List (κ × ℚ)
  | [] => [(label, stop)]
  | (other, latest) :: rest =>
    if other = label then (other, max latest stop) :: rest else (other, latest) :: raise label stop rest

/-- The sweep, with the latest end of every label seen. -/
def clashFrom : List (κ × ℚ) → List (Span κ) → Bool
  | _, [] => false
  | latest, s :: rest =>
    if latest.any fun p => decide (p.1 ≠ s.label ∧ p.2 > s.start) then true
    else clashFrom (raise s.label s.stop latest) rest

theorem exists_mem_raise {label l : κ} {stop x : ℚ} (latest : List (κ × ℚ)) :
    (∃ e, (l, e) ∈ raise label stop latest ∧ x < e) ↔
      (∃ e, (l, e) ∈ latest ∧ x < e) ∨ (l = label ∧ x < stop) := by
  induction latest with
  | nil => simp [raise]
  | cons p rest ih =>
    obtain ⟨other, last⟩ := p
    unfold raise
    split
    · rename_i hother
      subst hother
      simp only [mem_cons, Prod.mk.injEq, or_and_right, exists_or, and_assoc, exists_eq_left,
        exists_and_left, lt_max_iff, and_or_left]
      exact or_right_comm
    · simp only [mem_cons, or_and_right, exists_or, ih]
      exact or_assoc.symm

/-- The two spans are of one label or share no time. -/
def Apart (a b : Span κ) : Prop := ¬ (a.label ≠ b.label ∧ a.meets b)

instance : Std.Symm (Apart (κ := κ)) := ⟨fun a b h hba => by
  refine h ⟨hba.1.symm, ?_⟩
  have hmeets := hba.2
  unfold Span.meets at *
  rwa [max_comm, min_comm]⟩

/-- `Apart`, of a span that does not start after the other. -/
def Behind (a b : Span κ) : Prop := a.label = b.label ∨ a.stop ≤ b.start

theorem clashFrom_eq_false (latest : List (κ × ℚ)) (spans : List (Span κ)) :
    clashFrom latest spans = false ↔
      (∀ s ∈ spans, ∀ l, l ≠ s.label → ¬ ∃ e, (l, e) ∈ latest ∧ s.start < e) ∧
        spans.Pairwise Behind := by
  induction spans generalizing latest with
  | nil => simp [clashFrom]
  | cons s rest ih =>
    have hhead : (latest.any fun p => decide (p.1 ≠ s.label ∧ p.2 > s.start)) = false ↔
        ∀ l, l ≠ s.label → ¬ ∃ e, (l, e) ∈ latest ∧ s.start < e := by
      rw [any_eq_false]
      constructor
      · rintro h l hl ⟨e, he, hlt⟩
        exact h (l, e) he (decide_eq_true ⟨hl, hlt⟩)
      · rintro h ⟨l, e⟩ he hclash
        obtain ⟨hl, hlt⟩ := of_decide_eq_true hclash
        exact h l hl ⟨e, he, hlt⟩
    have hrest : (∀ t ∈ rest, ∀ l, l ≠ t.label →
        ¬ ∃ e, (l, e) ∈ raise s.label s.stop latest ∧ t.start < e) ↔
        (∀ t ∈ rest, ∀ l, l ≠ t.label → ¬ ∃ e, (l, e) ∈ latest ∧ t.start < e) ∧
          ∀ t ∈ rest, Behind s t := by
      constructor
      · intro h
        refine ⟨fun t ht l hl hlate => h t ht l hl ((exists_mem_raise latest).mpr (.inl hlate)),
          fun t ht => ?_⟩
        by_contra hbehind
        obtain ⟨hlabel, hlate⟩ := not_or.mp hbehind
        exact h t ht s.label hlabel ((exists_mem_raise latest).mpr (.inr ⟨rfl, not_le.mp hlate⟩))
      · rintro ⟨hlatest, hbehind⟩ t ht l hl hlate
        rcases (exists_mem_raise latest).mp hlate with hlate | ⟨rfl, hearly⟩
        · exact hlatest t ht l hl hlate
        · rcases hbehind t ht with heq | hle
          · exact hl heq
          · exact absurd hearly (not_lt.mpr hle)
    unfold clashFrom
    rw [forall_mem_cons, pairwise_cons]
    cases hany : latest.any fun p => decide (p.1 ≠ s.label ∧ p.2 > s.start) with
    | true =>
      have hclash := mt hhead.mpr (by rw [hany]; decide)
      rw [if_pos rfl]
      exact iff_of_false (by decide) fun h => hclash h.1.1
    | false =>
      rw [if_neg Bool.false_ne_true, ih, hrest]
      have hnone := hhead.mp hany
      tauto

/-- Over spans that are sorted by their starts the sweep finds shared time. -/
theorem clashFrom_iff {spans : List (Span κ)} (hwidth : ∀ s ∈ spans, s.start < s.stop)
    (hsorted : spans.Pairwise fun a b => a.start ≤ b.start) :
    clashFrom [] spans = true ↔ ∃ a ∈ spans, ∃ b ∈ spans, a.label ≠ b.label ∧ a.meets b := by
  have hbehind : ∀ a b : Span κ, b ∈ spans → a.start ≤ b.start → (Behind a b ↔ Apart a b) := by
    intro a b hb hle
    have hb := hwidth b hb
    unfold Behind Apart Span.meets
    rw [max_eq_right hle, lt_min_iff, ← not_lt]
    tauto
  have hfalse : clashFrom [] spans = false ↔ ∀ a ∈ spans, ∀ b ∈ spans, Apart a b := by
    rw [clashFrom_eq_false]
    constructor
    · rintro ⟨-, hpairwise⟩
      refine List.Pairwise.forall_of_forall (fun a _ h => h.1 rfl) ?_
      exact (hpairwise.and hsorted).imp_of_mem fun {a b} _ hb h => (hbehind a b hb h.2).mp h.1
    · intro h
      refine ⟨by simp, hsorted.imp_of_mem fun {a b} ha hb hle => ?_⟩
      exact (hbehind a b hb hle).mpr (h a ha b hb)
  constructor
  · intro htrue
    by_contra hnone
    have hnothing := hfalse.mpr fun a ha b hb h => hnone ⟨a, ha, b, hb, h⟩
    rw [hnothing] at htrue
    cases htrue
  · rintro ⟨a, ha, b, hb, h⟩
    by_contra htrue
    exact hfalse.mp (Bool.eq_false_of_not_eq_true htrue) a ha b hb h

end Labels

end Spans

end YawnApp.Foundation
