/-
  Foundation/Tickets.lean --- tickets that are drawn once and kept in tables.

  An office gives out tickets of several kinds and keeps in a table of each kind
  what they were given for.  It draws them from a roll on which no ticket is
  twice, and it may drop tickets.  So a ticket is in one table at most, and a
  ticket that was dropped does not come back.
-/
import Mathlib.Logic.Function.Basic
import Mathlib.Order.Basic

set_option autoImplicit false

namespace YawnApp.Foundation

section Tickets

variable {κ τ α : Type}

structure Office (κ τ α : Type) where
  table : κ → τ → Option α
  /-- How many tickets have been drawn. -/
  drawn : Nat

namespace Office

variable (roll : Nat → τ)

/-- Every ticket in the tables has been drawn, and is in one of them. -/
structure Orderly (office : Office κ τ α) : Prop where
  drawn : ∀ {kind ticket a}, office.table kind ticket = some a → ∃ i < office.drawn, ticket = roll i
  one : ∀ {kind other ticket a b}, office.table kind ticket = some a →
    office.table other ticket = some b → kind = other

/-- Between two times tickets were drawn and tickets were dropped. -/
structure Later (office later : Office κ τ α) : Prop where
  drawn : office.drawn ≤ later.drawn
  old : ∀ {kind ticket a}, later.table kind ticket = some a →
    office.table kind ticket = some a ∨ ∃ i, office.drawn ≤ i ∧ ticket = roll i

variable {roll} {office middle later : Office κ τ α}

theorem Later.refl (office : Office κ τ α) : Later roll office office :=
  ⟨Nat.le_refl _, Or.inl⟩

theorem Later.trans (h : Later roll office middle) (hlater : Later roll middle later) :
    Later roll office later where
  drawn := Nat.le_trans h.drawn hlater.drawn
  old := by
    intro kind ticket a hfound
    rcases hlater.old hfound with hmiddle | ⟨i, hi, heq⟩
    · exact h.old hmiddle
    · exact Or.inr ⟨i, Nat.le_trans h.drawn hi, heq⟩

/-- Tickets are dropped. -/
theorem Orderly.drop (h : Orderly roll office) (later : Office κ τ α) (hdrawn : office.drawn = later.drawn)
    (hold : ∀ {kind ticket a}, later.table kind ticket = some a →
      office.table kind ticket = some a) :
    Orderly roll later ∧ Later roll office later := by
  refine ⟨⟨fun hfound => ?_, fun hone hother => h.one (hold hone) (hold hother)⟩,
    Nat.le_of_eq hdrawn, fun hfound => Or.inl (hold hfound)⟩
  rw [← hdrawn]
  exact h.drawn (hold hfound)

/-- A ticket is drawn for one table. -/
theorem Orderly.draw (hroll : Function.Injective roll) (h : Orderly roll office)
    (kind : κ) (later : Office κ τ α) (hdrawn : later.drawn = office.drawn + 1)
    (hold : ∀ {other ticket a}, later.table other ticket = some a →
      (other = kind ∧ ticket = roll office.drawn) ∨ office.table other ticket = some a) :
    Orderly roll later ∧ Later roll office later := by
  have hnew : ∀ {other a}, office.table other (roll office.drawn) ≠ some a := by
    intro other a hfound
    obtain ⟨i, hi, heq⟩ := h.drawn hfound
    exact absurd (hroll heq) (Nat.ne_of_gt hi)
  refine ⟨⟨?_, ?_⟩, ?_, ?_⟩
  · intro other ticket a hfound
    rw [hdrawn]
    rcases hold hfound with ⟨-, rfl⟩ | hfound
    · exact ⟨office.drawn, Nat.lt_succ_self _, rfl⟩
    · obtain ⟨i, hi, heq⟩ := h.drawn hfound
      exact ⟨i, Nat.lt_succ_of_lt hi, heq⟩
  · intro one other ticket a b hone hother
    rcases hold hone with ⟨rfl, rfl⟩ | hone
    · rcases hold hother with ⟨rfl, -⟩ | hother
      · rfl
      · exact absurd hother hnew
    · rcases hold hother with ⟨rfl, rfl⟩ | hother
      · exact absurd hone hnew
      · exact h.one hone hother
  · rw [hdrawn]
    exact Nat.le_succ _
  · intro other ticket a hfound
    rcases hold hfound with ⟨-, rfl⟩ | hfound
    · exact Or.inr ⟨office.drawn, Nat.le_refl _, rfl⟩
    · exact Or.inl hfound

/-- A ticket that was drawn before has what it had, or is gone. -/
theorem Later.old_of_drawn (hroll : Function.Injective roll) (h : Later roll office later)
    {i : Nat} (hi : i < office.drawn) {kind : κ} {a : α} (hfound : later.table kind (roll i) = some a) :
    office.table kind (roll i) = some a := by
  rcases h.old hfound with hfound | ⟨j, hj, heq⟩
  · exact hfound
  · rw [hroll heq] at hi
    exact absurd hi (Nat.not_lt.mpr hj)

end Office

end Tickets

end YawnApp.Foundation
