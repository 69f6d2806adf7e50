import Mathlib.Data.List.Forall2
import Mathlib.Order.Lattice.Nat

set_option autoImplicit false

/-!
# Edit scripts

A script turns one list into another by keeping, deleting and inserting tokens; it
costs one for each token it deletes or inserts.  What is kept is decided by a test
of two tokens, which need not be an equality.
-/

namespace YawnApp.Foundation

namespace EditScript

open List

variable {α : Type} {b : List α} {same : α → α → Bool}

/-! ## Scripts -/

inductive Edit where
  | keep
  | delete
  | insert
deriving DecidableEq

/-- `Turns same s a b`: the script turns `a` into `b`. -/
inductive Turns (same : α → α → Bool) : List Edit → List α → List α → Prop
  | nil : Turns same [] [] []
  | keep {s a b p q} : same p q = true → Turns same s a b →
      Turns same (.keep :: s) (p :: a) (q :: b)
  | delete {s a b p} : Turns same s a b → Turns same (.delete :: s) (p :: a) b
  | insert {s a b q} : Turns same s a b → Turns same (.insert :: s) a (q :: b)

/-- The tokens a script deletes and inserts. -/
def cost : List Edit → Nat
  | [] => 0
  | .keep :: s => cost s
  | .delete :: s => cost s + 1
  | .insert :: s => cost s + 1

/-- The costs of the scripts from `a` to `b`. -/
def costs (same : α → α → Bool) (a b : List α) : Set Nat :=
  {d | ∃ s, Turns same s a b ∧ cost s = d}

theorem cost_append (s t : List Edit) : cost (s ++ t) = cost s + cost t := by
  induction s with
  | nil => exact (Nat.zero_add _).symm
  | cons e s ih => cases e <;> simp only [cons_append, cost, ih] <;> omega

theorem Turns.append {s t : List Edit} {a c d : List α} (h : Turns same s a b)
    (ht : Turns same t c d) : Turns same (s ++ t) (a ++ c) (b ++ d) := by
  induction h with
  | nil => exact ht
  | keep hsame _ ih => exact .keep hsame ih
  | delete _ ih => exact .delete ih
  | insert _ ih => exact .insert ih

theorem Turns.delete_all (l : List α) : Turns same (List.replicate l.length .delete) l [] := by
  induction l with
  | nil => exact .nil
  | cons p l ih => exact .delete ih

theorem Turns.insert_all (l : List α) : Turns same (List.replicate l.length .insert) [] l := by
  induction l with
  | nil => exact .nil
  | cons p l ih => exact .insert ih

/-- All of one list deleted and all of the other inserted. -/
theorem length_add_length_mem_costs (same : α → α → Bool) (a b : List α) :
    a.length + b.length ∈ costs same a b := by
  have hdeleted : Turns same (List.replicate a.length .delete) a [] := .delete_all a
  have hscript := hdeleted.append (Turns.insert_all b)
  rw [append_nil, nil_append] at hscript
  refine ⟨_, hscript, ?_⟩
  have hdelete : ∀ n, cost (List.replicate n .delete) = n := by
    intro n
    induction n with
    | zero => rfl
    | succ n ih => rw [replicate_succ, cost, ih]
  have hinsert : ∀ n, cost (List.replicate n .insert) = n := by
    intro n
    induction n with
    | zero => rfl
    | succ n ih => rw [replicate_succ, cost, ih]
  rw [cost_append, hdelete, hinsert]

/-- The length of a shortest script. -/
noncomputable def distance (same : α → α → Bool) (a b : List α) : Nat := sInf (costs same a b)

theorem distance_isLeast (same : α → α → Bool) (a b : List α) :
    IsLeast (costs same a b) (distance same a b) :=
  ⟨Nat.sInf_mem ⟨_, length_add_length_mem_costs same a b⟩, fun _ h => Nat.sInf_le h⟩

theorem distance_eq {a : List α} {d : Nat} (hd : d ∈ costs same a b)
    (hleast : ∀ e < d, e ∉ costs same a b) : distance same a b = d := by
  obtain ⟨hmem, hle⟩ := distance_isLeast same a b
  exact Nat.le_antisymm (hle hd) (Nat.not_lt.mp fun hlt => hleast _ hlt hmem)

/-! ## The positions of a script -/

/-- The positions a script deletes, counted from `x`. -/
def deletions : List Edit → Nat → List Nat
  | [], _ => []
  | .keep :: s, x => deletions s (x + 1)
  | .delete :: s, x => x :: deletions s (x + 1)
  | .insert :: s, x => deletions s x

/-- The positions a script inserts, counted from `y`. -/
def insertions : List Edit → Nat → List Nat
  | [], _ => []
  | .keep :: s, y => insertions s (y + 1)
  | .delete :: s, y => insertions s y
  | .insert :: s, y => y :: insertions s (y + 1)

/-- The pairs of positions a script keeps. -/
def pairs : List Edit → Nat → Nat → List (Nat × Nat)
  | [], _, _ => []
  | .keep :: s, x, y => (x, y) :: pairs s (x + 1) (y + 1)
  | .delete :: s, x, y => pairs s (x + 1) y
  | .insert :: s, x, y => pairs s x (y + 1)

theorem cost_eq (s : List Edit) :
    ∀ x y, cost s = (deletions s x).length + (insertions s y).length := by
  induction s with
  | nil => intro x y; rfl
  | cons e s ih =>
    intro x y
    cases e with
    | keep => exact ih (x + 1) (y + 1)
    | delete =>
      have := ih (x + 1) y
      simp only [cost, deletions, insertions, length_cons]
      omega
    | insert =>
      have := ih x (y + 1)
      simp only [cost, deletions, insertions, length_cons]
      omega

/-- A list without the positions in another, its own positions counted from `x`. -/
def without (gone : List Nat) : Nat → List α → List α
  | _, [] => []
  | x, p :: a => if x ∈ gone then without gone (x + 1) a else p :: without gone (x + 1) a

theorem without_eq_of_below {gone : List Nat} (a : List α) :
    ∀ x, ∀ below : List Nat, (∀ i ∈ below, i < x) →
      without (below ++ gone) x a = without gone x a := by
  induction a with
  | nil => intro x below _; rfl
  | cons p a ih =>
    intro x below hbelow
    have hrest := ih (x + 1) below fun i hi => Nat.lt_succ_of_lt (hbelow i hi)
    have hx : x ∉ below := fun hmem => Nat.lt_irrefl x (hbelow x hmem)
    simp only [without, mem_append, hx, false_or, hrest]

theorem deletions_ge (s : List Edit) : ∀ x, ∀ i ∈ deletions s x, x ≤ i := by
  induction s with
  | nil => intro x i hi; cases hi
  | cons e s ih =>
    intro x i hi
    cases e with
    | keep => exact Nat.le_of_succ_le (ih (x + 1) i hi)
    | delete =>
      rcases mem_cons.mp hi with rfl | hi
      · exact Nat.le_refl i
      · exact Nat.le_of_succ_le (ih (x + 1) i hi)
    | insert => exact ih x i hi

theorem insertions_ge (s : List Edit) : ∀ y, ∀ i ∈ insertions s y, y ≤ i := by
  induction s with
  | nil => intro y i hi; cases hi
  | cons e s ih =>
    intro y i hi
    cases e with
    | keep => exact Nat.le_of_succ_le (ih (y + 1) i hi)
    | insert =>
      rcases mem_cons.mp hi with rfl | hi
      · exact Nat.le_refl i
      · exact Nat.le_of_succ_le (ih (y + 1) i hi)
    | delete => exact ih y i hi

theorem deletions_sorted (s : List Edit) : ∀ x, (deletions s x).Pairwise (· < ·) := by
  induction s with
  | nil => intro x; exact .nil
  | cons e s ih =>
    intro x
    cases e with
    | keep => exact ih (x + 1)
    | delete => exact .cons (deletions_ge s (x + 1)) (ih (x + 1))
    | insert => exact ih x

theorem insertions_sorted (s : List Edit) : ∀ y, (insertions s y).Pairwise (· < ·) := by
  induction s with
  | nil => intro y; exact .nil
  | cons e s ih =>
    intro y
    cases e with
    | keep => exact ih (y + 1)
    | insert => exact .cons (insertions_ge s (y + 1)) (ih (y + 1))
    | delete => exact ih y

theorem Turns.deletions_lt {s : List Edit} {a : List α} (h : Turns same s a b) :
    ∀ x, ∀ i ∈ deletions s x, i < x + a.length := by
  induction h with
  | nil => intro x i hi; cases hi
  | keep _ _ ih =>
    intro x i hi
    have := ih (x + 1) i hi
    rw [length_cons]
    omega
  | delete _ ih =>
    intro x i hi
    rw [length_cons]
    rcases mem_cons.mp hi with rfl | hi
    · omega
    · have := ih (x + 1) i hi
      omega
  | insert _ ih => exact ih

theorem Turns.insertions_lt {s : List Edit} {a : List α} (h : Turns same s a b) :
    ∀ y, ∀ i ∈ insertions s y, i < y + b.length := by
  induction h with
  | nil => intro y i hi; cases hi
  | keep _ _ ih =>
    intro y i hi
    have := ih (y + 1) i hi
    rw [length_cons]
    omega
  | insert _ ih =>
    intro y i hi
    rw [length_cons]
    rcases mem_cons.mp hi with rfl | hi
    · omega
    · have := ih (y + 1) i hi
      omega
  | delete _ ih => exact ih

/-- What a script keeps stands on both sides in the same order, and is what is left
of either side without the positions it deletes or inserts. -/
theorem Turns.kept {same : α → α → Bool} {s : List Edit} {a b : List α} (h : Turns same s a b) :
    ∀ x y, List.Forall₂ (fun p q => same p q = true)
      (without (deletions s x) x a) (without (insertions s y) y b) := by
  induction h with
  | nil => intro x y; exact .nil
  | @keep s a b p q hsame _ ih =>
    intro x y
    have hx : x ∉ deletions s (x + 1) := fun hmem => Nat.lt_irrefl x (deletions_ge s _ x hmem)
    have hy : y ∉ insertions s (y + 1) := fun hmem => Nat.lt_irrefl y (insertions_ge s _ y hmem)
    rw [deletions, insertions, without, without, if_neg hx, if_neg hy]
    exact .cons hsame (ih (x + 1) (y + 1))
  | @delete s a b p _ ih =>
    intro x y
    have hbelow : without ([x] ++ deletions s (x + 1)) (x + 1) a =
        without (deletions s (x + 1)) (x + 1) a := without_eq_of_below a (x + 1) [x] (by simp)
    rw [deletions, insertions, without, if_pos mem_cons_self]
    exact hbelow ▸ ih (x + 1) y
  | @insert s a b q _ ih =>
    intro x y
    have hbelow : without ([y] ++ insertions s (y + 1)) (y + 1) b =
        without (insertions s (y + 1)) (y + 1) b := without_eq_of_below b (y + 1) [y] (by simp)
    rw [deletions, insertions, without, if_pos mem_cons_self]
    exact hbelow ▸ ih x (y + 1)

/-! ## The pairs of a script -/

/-- The tokens at two positions pass the test. -/
def Matches (same : α → α → Bool) (a b : List α) (x y : Nat) : Prop :=
  ∃ p q, a[x]? = some p ∧ b[y]? = some q ∧ same p q = true

theorem Matches.lt {a : List α} {x y : Nat} (h : Matches same a b x y) :
    x < a.length ∧ y < b.length := by
  obtain ⟨p, q, hp, hq, -⟩ := h
  exact ⟨(List.getElem?_eq_some_iff.mp hp).1, (List.getElem?_eq_some_iff.mp hq).1⟩

theorem pairs_ge (s : List Edit) :
    ∀ x y, ∀ pair ∈ pairs s x y, x ≤ pair.1 ∧ y ≤ pair.2 := by
  induction s with
  | nil => intro x y pair hpair; cases hpair
  | cons e s ih =>
    intro x y pair hpair
    cases e with
    | keep =>
      rcases mem_cons.mp hpair with rfl | hpair
      · exact ⟨Nat.le_refl x, Nat.le_refl y⟩
      · have := ih (x + 1) (y + 1) pair hpair
        omega
    | delete =>
      have := ih (x + 1) y pair hpair
      omega
    | insert =>
      have := ih x (y + 1) pair hpair
      omega

/-- Pairs do not cross. -/
theorem pairs_sorted (s : List Edit) :
    ∀ x y, (pairs s x y).Pairwise fun p q => p.1 < q.1 ∧ p.2 < q.2 := by
  induction s with
  | nil => intro x y; exact .nil
  | cons e s ih =>
    intro x y
    cases e with
    | keep => exact .cons (pairs_ge s (x + 1) (y + 1)) (ih (x + 1) (y + 1))
    | delete => exact ih (x + 1) y
    | insert => exact ih x (y + 1)

theorem Turns.pairs_match {s : List Edit} {a : List α} (h : Turns same s a b) :
    ∀ x y, ∀ pair ∈ pairs s x y, Matches same a b (pair.1 - x) (pair.2 - y) := by
  induction h with
  | nil => intro x y pair hpair; cases hpair
  | @keep s a b p q hsame _ ih =>
    intro x y pair hpair
    rcases mem_cons.mp hpair with rfl | hpair
    · exact ⟨p, q, by simp, by simp, hsame⟩
    · obtain ⟨t, u, ht, hu, htu⟩ := ih (x + 1) (y + 1) pair hpair
      have hge := pairs_ge s (x + 1) (y + 1) pair hpair
      refine ⟨t, u, ?_, ?_, htu⟩
      · rw [show pair.1 - x = pair.1 - (x + 1) + 1 by omega, List.getElem?_cons_succ, ht]
      · rw [show pair.2 - y = pair.2 - (y + 1) + 1 by omega, List.getElem?_cons_succ, hu]
  | @delete s a b p _ ih =>
    intro x y pair hpair
    obtain ⟨t, u, ht, hu, htu⟩ := ih (x + 1) y pair hpair
    have hge := pairs_ge s (x + 1) y pair hpair
    refine ⟨t, u, ?_, hu, htu⟩
    rw [show pair.1 - x = pair.1 - (x + 1) + 1 by omega, List.getElem?_cons_succ, ht]
  | @insert s a b q _ ih =>
    intro x y pair hpair
    obtain ⟨t, u, ht, hu, htu⟩ := ih x (y + 1) pair hpair
    have hge := pairs_ge s x (y + 1) pair hpair
    refine ⟨t, u, ht, ?_, htu⟩
    rw [show pair.2 - y = pair.2 - (y + 1) + 1 by omega, List.getElem?_cons_succ, hu]

/-- A position on the left is deleted or is in a pair. -/
theorem Turns.deleted_or_paired {s : List Edit} {a : List α} (h : Turns same s a b) :
    ∀ x y i, x ≤ i → i < x + a.length → i ∈ deletions s x ∨ ∃ j, (i, j) ∈ pairs s x y := by
  induction h with
  | nil =>
    intro x y i hle hlt
    rw [length_nil] at hlt
    omega
  | @keep s a b p q _ _ ih =>
    intro x y i hle hlt
    rcases Nat.eq_or_lt_of_le hle with rfl | hle
    · exact .inr ⟨y, mem_cons_self⟩
    · rcases ih (x + 1) (y + 1) i hle (by rw [length_cons] at hlt; omega) with h | ⟨j, h⟩
      · exact .inl h
      · exact .inr ⟨j, mem_cons_of_mem _ h⟩
  | @delete s a b p _ ih =>
    intro x y i hle hlt
    rcases Nat.eq_or_lt_of_le hle with rfl | hle
    · exact .inl mem_cons_self
    · rcases ih (x + 1) y i hle (by rw [length_cons] at hlt; omega) with h | h
      · exact .inl (mem_cons_of_mem _ h)
      · exact .inr h
  | insert _ ih =>
    intro x y i hle hlt
    exact ih x (y + 1) i hle hlt

/-- A position on the right is inserted or is in a pair. -/
theorem Turns.inserted_or_paired {s : List Edit} {a : List α} (h : Turns same s a b) :
    ∀ x y j, y ≤ j → j < y + b.length → j ∈ insertions s y ∨ ∃ i, (i, j) ∈ pairs s x y := by
  induction h with
  | nil =>
    intro x y j hle hlt
    rw [length_nil] at hlt
    omega
  | @keep s a b p q _ _ ih =>
    intro x y j hle hlt
    rcases Nat.eq_or_lt_of_le hle with rfl | hle
    · exact .inr ⟨x, mem_cons_self⟩
    · rcases ih (x + 1) (y + 1) j hle (by rw [length_cons] at hlt; omega) with h | ⟨i, h⟩
      · exact .inl h
      · exact .inr ⟨i, mem_cons_of_mem _ h⟩
  | @insert s a b q _ ih =>
    intro x y j hle hlt
    rcases Nat.eq_or_lt_of_le hle with rfl | hle
    · exact .inl mem_cons_self
    · rcases ih x (y + 1) j hle (by rw [length_cons] at hlt; omega) with h | h
      · exact .inl (mem_cons_of_mem _ h)
      · exact .inr h
  | delete _ ih =>
    intro x y j hle hlt
    exact ih (x + 1) y j hle hlt

end EditScript

end YawnApp.Foundation
