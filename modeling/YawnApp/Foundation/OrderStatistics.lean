import Mathlib.Data.List.GetD
import Mathlib.Data.List.Sort
import Mathlib.Data.Rat.Floor
import Mathlib.Order.Basic

set_option autoImplicit false

/-!
# Order statistics, and the first of each key

The element of a rank is that of the sorted list, so it depends on no order and grows with
the rank.  `firstBy` keeps of a list the elements whose key no earlier one has.
-/

namespace YawnApp.Foundation

open List

/-! ## Ranks -/

section Ranks

variable {α : Type} [LinearOrder α]

/-- The element of the rank, counted from 0. -/
def orderStatistic (l : List α) (rank : Nat) (fallback : α) : α :=
  (l.insertionSort (· ≤ ·)).getD rank fallback

variable {l : List α}

theorem orderStatistic_mem {rank : Nat} (h : rank < l.length) (fallback : α) :
    orderStatistic l rank fallback ∈ l := by
  have hsorted : rank < (l.insertionSort (· ≤ ·)).length := by
    rw [length_insertionSort]
    exact h
  unfold orderStatistic
  rw [getD_eq_getElem _ _ hsorted]
  exact (perm_insertionSort (· ≤ ·) l).mem_iff.mp (getElem_mem hsorted)

theorem orderStatistic_mono {low high : Nat} (hle : low ≤ high) (hhigh : high < l.length)
    (fallback : α) : orderStatistic l low fallback ≤ orderStatistic l high fallback := by
  have hlength := length_insertionSort (· ≤ ·) l
  unfold orderStatistic
  rw [getD_eq_getElem _ _ (by omega), getD_eq_getElem _ _ (by omega)]
  rcases hle.lt_or_eq with hlt | rfl
  · exact pairwise_iff_getElem.mp (pairwise_insertionSort (· ≤ ·) l) _ _ _ _ hlt
  · exact le_refl _

theorem orderStatistic_perm {other : List α} (h : l.Perm other) (rank : Nat) (fallback : α) :
    orderStatistic l rank fallback = orderStatistic other rank fallback := by
  have hsorted : l.insertionSort (· ≤ ·) = other.insertionSort (· ≤ ·) := by
    refine List.Perm.eq_of_pairwise' (pairwise_insertionSort (· ≤ ·) l)
      (pairwise_insertionSort (· ≤ ·) other) ?_
    exact ((perm_insertionSort (· ≤ ·) l).trans h).trans
      (perm_insertionSort (· ≤ ·) other).symm
  unfold orderStatistic
  rw [hsorted]

end Ranks

/-! ## Fractions -/

section Fractions

variable {α : Type}

/-- The part of the list that has the property. -/
def fraction (p : α → Bool) (l : List α) : ℚ := l.countP p / l.length

theorem fraction_mono {p q : α → Bool} {l : List α} (h : ∀ a ∈ l, p a = true → q a = true) :
    fraction p l ≤ fraction q l := by
  unfold fraction
  exact div_le_div_of_nonneg_right (Nat.cast_le.mpr (countP_mono_left h)) (Nat.cast_nonneg _)

theorem fraction_perm {p : α → Bool} {l other : List α} (h : l.Perm other) :
    fraction p l = fraction p other := by
  rw [fraction, fraction, h.countP_eq, h.length_eq]

end Fractions

/-! ## The first of each key -/

section First

variable {α κ : Type} [DecidableEq κ] (key : α → κ)

/-- The elements whose key is not among the seen ones, the first of each. -/
def firstBy : List κ → List α → List α
  | _, [] => []
  | seen, a :: l =>
    if key a ∈ seen then firstBy seen l else a :: firstBy (key a :: seen) l

variable {key}

theorem firstBy_sublist (l : List α) : ∀ seen, (firstBy key seen l).Sublist l := by
  induction l with
  | nil => exact fun _ => List.Sublist.refl _
  | cons a l ih =>
    intro seen
    rw [firstBy]
    split
    · exact (ih seen).cons a
    · exact (ih _).cons_cons a

theorem not_mem_seen {l : List α} : ∀ {seen : List κ}, ∀ a ∈ firstBy key seen l, key a ∉ seen := by
  induction l with
  | nil => exact fun a h => absurd h not_mem_nil
  | cons first l ih =>
    intro seen a h
    rw [firstBy] at h
    split at h
    · exact ih a h
    · rename_i hfresh
      rcases mem_cons.mp h with rfl | h
      · exact hfresh
      · exact fun hseen => ih a h (mem_cons_of_mem _ hseen)

/-- No two of them have one key. -/
theorem pairwise_firstBy (l : List α) :
    ∀ seen, (firstBy key seen l).Pairwise fun a b => key a ≠ key b := by
  induction l with
  | nil => exact fun _ => List.Pairwise.nil
  | cons a l ih =>
    intro seen
    rw [firstBy]
    split
    · exact ih seen
    · refine List.Pairwise.cons (fun b hb heq => ?_) (ih _)
      exact not_mem_seen b hb (heq ▸ mem_cons_self)

theorem head?_firstBy (l : List α) : (firstBy key [] l).head? = l.head? := by
  cases l with
  | nil => rfl
  | cons => rw [firstBy, if_neg not_mem_nil, List.head?_cons, List.head?_cons]

/-- Every key is that of one that is kept, or was seen. -/
theorem exists_of_firstBy {l : List α} : ∀ {seen : List κ}, ∀ a ∈ l,
    key a ∈ seen ∨ ∃ b ∈ firstBy key seen l, key b = key a := by
  induction l with
  | nil => exact fun a h => absurd h not_mem_nil
  | cons first l ih =>
    intro seen a h
    rw [firstBy]
    split
    · rename_i hseen
      rcases mem_cons.mp h with rfl | h
      · exact .inl hseen
      · exact ih a h
    · rcases mem_cons.mp h with rfl | h
      · exact .inr ⟨a, mem_cons_self, rfl⟩
      · rcases @ih (key first :: seen) a h with hseen | ⟨b, hb, heq⟩
        · rcases mem_cons.mp hseen with heq | hseen
          · exact .inr ⟨first, mem_cons_self, heq.symm⟩
          · exact .inl hseen
        · exact .inr ⟨b, mem_cons_of_mem _ hb, heq⟩

/-- What is kept comes before everything of its key. -/
theorem firstBy_first {r : α → α → Prop} {l : List α} : ∀ {seen : List κ}, l.Pairwise r →
    ∀ a ∈ firstBy key seen l, ∀ b ∈ l, key b = key a → b = a ∨ r a b := by
  induction l with
  | nil => exact fun _ a h => absurd h not_mem_nil
  | cons first l ih =>
    intro seen hsorted a ha b hb heq
    rw [pairwise_cons] at hsorted
    rw [firstBy] at ha
    split at ha
    · rename_i hseen
      rcases mem_cons.mp hb with rfl | hb
      · exact absurd (heq ▸ hseen) (not_mem_seen a ha)
      · exact ih hsorted.2 a ha b hb heq
    · rcases mem_cons.mp ha with rfl | ha
      · rcases mem_cons.mp hb with rfl | hb
        · exact .inl rfl
        · exact .inr (hsorted.1 b hb)
      · rcases mem_cons.mp hb with rfl | hb
        · exact absurd (heq ▸ mem_cons_self) (not_mem_seen a ha)
        · exact ih hsorted.2 a ha b hb heq

end First

end YawnApp.Foundation
