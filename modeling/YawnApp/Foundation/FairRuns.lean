/-
  Foundation/FairRuns.lean --- endless runs in which no thread is starved.

  A program of several threads takes one step after another.  A thread that can go
  on and never stops being able to is given a step at last; nothing else is
  promised about the order.

  The rule for what must happen is `Progress`.  In every state of a phase some
  thread helps: it can go on, and the step by which it does brings the phase to its
  goal or lowers a rank.  A step of any other thread may do so too, or it leaves the
  rank and the helping thread as they are.  `Progress.leadsTo` concludes that the
  goal is reached.
-/
import Mathlib.Order.WellFounded

set_option autoImplicit false

namespace YawnApp.Foundation

/-- A program of several threads: what a step does, when a thread can go on, and
which steps are its own. -/
structure Threads (σ κ τ : Type) where
  next : σ → κ → σ
  ready : τ → σ → Prop
  moves : τ → σ → κ → Prop

namespace Threads

variable {σ κ τ ω : Type} (m : Threads σ κ τ)

/-- The state after so many steps of an endless run. -/
def after (s : σ) (steps : Nat → κ) : Nat → σ
  | 0 => s
  | n + 1 => m.next (after s steps n) (steps n)

/-- A thread that can go on from some step on does go on. -/
def Fair (s : σ) (steps : Nat → κ) : Prop :=
  ∀ t n, (∀ k, n ≤ k → m.ready t (m.after s steps k)) →
    ∃ k, n ≤ k ∧ m.moves t (m.after s steps k) (steps k)

/-- From a step on the run comes to a state of the kind. -/
def Reaches (s : σ) (steps : Nat → κ) (n : Nat) (Q : σ → Prop) : Prop :=
  ∃ k, n ≤ k ∧ Q (m.after s steps k)

variable {m} {s : σ} {steps : Nat → κ} {Q : σ → Prop}

theorem Reaches.now {n : Nat} (h : Q (m.after s steps n)) : m.Reaches s steps n Q :=
  ⟨n, Nat.le_refl n, h⟩

theorem Reaches.trans {P : σ → Prop} {n : Nat} (h : m.Reaches s steps n P)
    (hnext : ∀ k, n ≤ k → P (m.after s steps k) → m.Reaches s steps k Q) :
    m.Reaches s steps n Q := by
  obtain ⟨k, hk, hP⟩ := h
  obtain ⟨j, hj, hQ⟩ := hnext k hk hP
  exact ⟨j, hk.trans hj, hQ⟩

/-- What every step keeps holds throughout. -/
theorem after_keeps {I : σ → Prop} (hkeep : ∀ s k, I s → I (m.next s k)) (h : I s)
    (n : Nat) : I (m.after s steps n) := by
  induction n with
  | zero => exact h
  | succ n ih => exact hkeep _ _ ih

/-- An endless run that gives every thread its turn again and again is fair. -/
theorem fair_of_turns (h : ∀ t n, ∃ k, n ≤ k ∧ ∀ s, m.ready t s → m.moves t s (steps k)) :
    m.Fair s steps := by
  intro t n hready
  obtain ⟨k, hk, hmoves⟩ := h t n
  exact ⟨k, hk, hmoves _ (hready k hk)⟩

/-- In the phase `P` every allowed step reaches `Q`, lowers the rank, or leaves rank
and helper alone and is none of the helper's. -/
structure Progress [Preorder ω] (m : Threads σ κ τ) (Allowed : σ → κ → Prop) (P Q : σ → Prop)
    (rank : σ → ω) (helper : σ → τ) : Prop where
  ready : ∀ s k, Allowed s k → P s → m.ready (helper s) s
  step : ∀ s k, Allowed s k → P s → Q (m.next s k) ∨ (P (m.next s k) ∧
    (rank (m.next s k) < rank s ∨
      (rank (m.next s k) = rank s ∧ helper (m.next s k) = helper s ∧ ¬ m.moves (helper s) s k)))

theorem Progress.leadsTo [Preorder ω] [WellFoundedLT ω] {Allowed : σ → κ → Prop} {P : σ → Prop}
    {rank : σ → ω} {helper : σ → τ} (h : m.Progress Allowed P Q rank helper)
    (hfair : m.Fair s steps) {n : Nat}
    (hallowed : ∀ k, n ≤ k → Allowed (m.after s steps k) (steps k)) (hP : P (m.after s steps n)) :
    m.Reaches s steps n Q := by
  -- the induction is on the rank: while it does not drop, the same thread helps
  induction hr : rank (m.after s steps n) using WellFoundedLT.induction generalizing n with
  | ind r ih =>
    by_contra hnever
    have hnot : ∀ k, n ≤ k → ¬ Q (m.after s steps k) := fun k hk hQ => hnever ⟨k, hk, hQ⟩
    have hlow : ∀ k, n ≤ k → P (m.after s steps k) → ¬ rank (m.after s steps k) < r := by
      intro k hk hPk hlt
      obtain ⟨j, hj, hQ⟩ := ih _ hlt (fun j hj => hallowed j (hk.trans hj)) hPk rfl
      exact hnot j (hk.trans hj) hQ
    have hstays : ∀ k, n ≤ k → P (m.after s steps k) ∧ rank (m.after s steps k) = r ∧
        helper (m.after s steps k) = helper (m.after s steps n) := by
      intro k hk
      induction k, hk using Nat.le_induction with
      | base => exact ⟨hP, hr, rfl⟩
      | succ k hk ihk =>
        obtain ⟨hPk, hrank, hhelper⟩ := ihk
        rcases h.step _ _ (hallowed k hk) hPk with hQ | ⟨hP', hlt | ⟨heq, hsame, -⟩⟩
        · exact absurd hQ (hnot (k + 1) (Nat.le_succ_of_le hk))
        · exact absurd (hrank ▸ hlt) (hlow (k + 1) (Nat.le_succ_of_le hk) hP')
        · exact ⟨hP', heq.trans hrank, hsame.trans hhelper⟩
    obtain ⟨k, hk, hmove⟩ := hfair (helper (m.after s steps n)) n fun k hk => by
      rw [← (hstays k hk).2.2]
      exact h.ready _ _ (hallowed k hk) (hstays k hk).1
    obtain ⟨hPk, hrank, hhelper⟩ := hstays k hk
    rcases h.step _ _ (hallowed k hk) hPk with hQ | ⟨hP', hlt | ⟨-, -, hidle⟩⟩
    · exact hnot (k + 1) (Nat.le_succ_of_le hk) hQ
    · exact hlow (k + 1) (Nat.le_succ_of_le hk) hP' (hrank ▸ hlt)
    · exact hidle (hhelper ▸ hmove)

end Threads

end YawnApp.Foundation
