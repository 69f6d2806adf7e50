/-
  Foundation/Simulation.lean --- programs over storage that follow an abstract
  system.

  An abstract system has phases and steps between them.  `Holds p s` says that
  the storage `s` shows the phase `p`.  A trace of storage states follows the
  system when its states show, one after another, phases that are each a step
  from the one before.  `Follows` is this relation between a starting phase, a
  trace and the phase the trace ends in; it composes, it survives a crash, and
  `follows_history` lifts it from calls to runs of calls cut anywhere.

  What an abstract system says once about its own steps is then true of the
  storage: `Follows.split` turns a property that no step undoes into a single
  point of the history before which it is false and after which it is true.
-/
import YawnApp.Foundation.Durable

set_option autoImplicit false

namespace YawnApp.Foundation

variable {σ ρ ε α β κ : Type}

/-- The trace shows phases that lead from the first phase to the last. -/
inductive Follows (Holds : ρ → σ → Prop) (Next : ρ → ρ → Prop) : ρ → List σ → ρ → Prop
  | nil (p : ρ) : Follows Holds Next p [] p
  | cons {p q r : ρ} {s : σ} {rest : List σ} (next : Next p q) (holds : Holds q s)
      (follows : Follows Holds Next q rest r) : Follows Holds Next p (s :: rest) r

namespace Follows

variable {Holds : ρ → σ → Prop} {Next : ρ → ρ → Prop} {p q r : ρ} {s : σ} {trace : List σ}

theorem single (hnext : Next p q) (hholds : Holds q s) : Follows Holds Next p [s] q :=
  .cons hnext hholds (.nil q)

theorem append {first second : List σ} (h : Follows Holds Next p first q)
    (h' : Follows Holds Next q second r) : Follows Holds Next p (first ++ second) r := by
  induction h with
  | nil _ => exact h'
  | cons hnext hholds _ ih => exact .cons hnext hholds (ih h')

/-- Steps that keep the phase. -/
theorem stay (hrefl : Next p p) (h : ∀ s ∈ trace, Holds p s) : Follows Holds Next p trace p := by
  induction trace with
  | nil => exact .nil p
  | cons s rest ih =>
    exact .cons hrefl (h s List.mem_cons_self) (ih fun t ht => h t (List.mem_cons_of_mem s ht))

/-- The last state shows the last phase. -/
theorem final (h : Follows Holds Next p trace q) :
    ∀ {s : σ}, Holds p s → Holds q (trace.getLastD s) := by
  induction h with
  | nil _ => exact fun hs => hs
  | @cons _ _ _ t rest _ hholds _ ih =>
    intro s _
    rw [List.getLastD_cons]
    exact ih hholds

/-- A crash leaves a trace that follows the system as far as it goes. -/
theorem take (h : Follows Holds Next p trace q) (steps : Nat) :
    ∃ r, Follows Holds Next p (trace.take steps) r := by
  induction h generalizing steps with
  | nil p => exact ⟨p, by rw [List.take_nil]; exact .nil p⟩
  | @cons p _ _ s rest hnext hholds _ ih =>
    cases steps with
    | zero => exact ⟨p, by rw [List.take_zero]; exact .nil p⟩
    | succ steps =>
      obtain ⟨r, hr⟩ := ih steps
      exact ⟨r, by rw [List.take_succ_cons]; exact .cons hnext hholds hr⟩

/-- A trace leads from its first phase to its last. -/
theorem reaches (h : Follows Holds Next p trace q) : Relation.ReflTransGen Next p q := by
  induction h with
  | nil => exact .refl
  | cons hnext _ _ ih => exact .head hnext ih

/-- What no step undoes is not undone by a trace. -/
theorem keeps {P : ρ → Prop} (hkeep : ∀ p q, Next p q → P p → P q)
    (h : Follows Holds Next p trace q) (hp : P p) : P q := by
  induction h with
  | nil _ => exact hp
  | cons hnext _ _ ih => exact ih (hkeep _ _ hnext hp)

/-- Every state of a trace shows a phase on the way. -/
theorem mem (h : Follows Holds Next p trace q) (hs : s ∈ trace) :
    ∃ r, Relation.ReflTransGen Next p r ∧ Relation.ReflTransGen Next r q ∧ Holds r s := by
  induction h with
  | nil => cases hs
  | @cons p t q u rest hnext hholds hrest ih =>
    rcases List.mem_cons.mp hs with rfl | hs
    · exact ⟨t, .single hnext, hrest.reaches, hholds⟩
    · obtain ⟨r, htr, hrq, hr⟩ := ih hs
      exact ⟨r, .head hnext htr, hrq, hr⟩

/-- What a step never undoes and the trace ends with begins at one point. -/
theorem split {P : ρ → Prop} (hkeep : ∀ p q, Next p q → P p → P q)
    (h : Follows Holds Next p trace q) (hp : ¬ P p) (hq : P q) :
    ∃ before after, trace = before ++ after ∧ after ≠ [] ∧
      (∀ s ∈ before, ∃ r, ¬ P r ∧ Holds r s) ∧
      ∀ s ∈ after, ∃ r, P r ∧ Relation.ReflTransGen Next r q ∧ Holds r s := by
  induction h with
  | nil _ => exact absurd hq hp
  | @cons p t q s rest hnext hholds hrest ih =>
    by_cases ht : P t
    · refine ⟨[], s :: rest, rfl, List.cons_ne_nil s rest, by simp, fun u hu => ?_⟩
      rcases List.mem_cons.mp hu with rfl | hu
      · exact ⟨t, ht, hrest.reaches, hholds⟩
      · obtain ⟨r, htr, hrq, hr⟩ := hrest.mem hu
        refine ⟨r, ?_, hrq, hr⟩
        clear hrq hr
        induction htr with
        | refl => exact ht
        | tail _ hnext ih => exact hkeep _ _ hnext ih
    · obtain ⟨before, after, rfl, hne, hbefore, hafter⟩ := ih ht hq
      refine ⟨s :: before, after, rfl, hne, fun u hu => ?_, hafter⟩
      rcases List.mem_cons.mp hu with rfl | hu
      · exact ⟨t, ht, hholds⟩
      · exact hbefore u hu

end Follows

/-- Along a trace that starts at `s` the value of `f` changes exactly once. -/
def ChangesOnce (f : σ → α) (s : σ) (trace : List σ) : Prop :=
  ∃ before after, trace = before ++ after ∧ after ≠ [] ∧ (∀ t ∈ before, f t = f s) ∧
    ∃ value, value ≠ f s ∧ ∀ t ∈ after, f t = value

/-- A value that is one thing up to a phase and another from there on. -/
theorem Follows.changesOnce {Holds : ρ → σ → Prop} {Next : ρ → ρ → Prop} {p q : ρ} {s : σ}
    {trace : List σ} (h : Follows Holds Next p trace q) {P : ρ → Prop}
    (hkeep : ∀ p q, Next p q → P p → P q) (hp : ¬ P p) (hq : P q) {f : σ → α} (value : α)
    (hbefore : ∀ r t, Holds r t → ¬ P r → f t = f s)
    (hafter : ∀ r t, Holds r t → P r → Relation.ReflTransGen Next r q → f t = value)
    (hne : value ≠ f s) : ChangesOnce f s trace := by
  obtain ⟨before, after, heq, hnil, hfirst, hsecond⟩ := h.split hkeep hp hq
  refine ⟨before, after, heq, hnil, fun t ht => ?_, value, hne, fun t ht => ?_⟩
  · obtain ⟨r, hr, ht⟩ := hfirst t ht
    exact hbefore r t ht hr
  · obtain ⟨r, hr, hreaches, ht⟩ := hsecond t ht
    exact hafter r t ht hr hreaches

/-! ## Loops -/

section Loops

variable {Holds : ρ → σ → Prop} {Next : ρ → ρ → Prop} {round : κ → Durable σ ε α}

/-- A loop of rounds that always answer and each follow the system. -/
theorem follows_forEach (hanswers : ∀ item, Answers (round item))
    (hround : ∀ item p s, Holds p s → ∃ q, Follows Holds Next p ((round item).exec s).trace q)
    (items : List κ) : ∀ p s, Holds p s →
      ∃ q, Follows Holds Next p ((Durable.forEach round items).exec s).trace q := by
  induction items with
  | nil => exact fun p _ _ => ⟨p, .nil p⟩
  | cons item rest ih =>
    intro p s hs
    obtain ⟨a, ha⟩ := hanswers item s
    obtain ⟨q, hq⟩ := hround item p s hs
    obtain ⟨r, hr⟩ := ih q _ (hq.final hs)
    exact ⟨r, by rw [Durable.forEach_cons_trace ha]; exact hq.append hr⟩

/-- If a state is ready for one of the items, that the other rounds leave it
so, and its own round ends with `P`, then so does the loop. -/
theorem follows_forEach_to {P : ρ → Prop} (hkeep : ∀ p q, Next p q → P p → P q) {R : σ → Prop}
    {mine : κ} (hanswers : ∀ item, Answers (round item))
    (hround : ∀ item p s, Holds p s → ∃ q, Follows Holds Next p ((round item).exec s).trace q)
    (hmine : ∀ p s, Holds p s → R s →
      ∃ q, Follows Holds Next p ((round mine).exec s).trace q ∧ P q)
    (hothers : ∀ item, item ≠ mine → ∀ s, R s → R (((round item).exec s).final s))
    {items : List κ} (hmem : mine ∈ items) : ∀ p s, Holds p s → R s →
      ∃ q, Follows Holds Next p ((Durable.forEach round items).exec s).trace q ∧ P q := by
  induction items with
  | nil => cases hmem
  | cons item rest ih =>
    intro p s hs hready
    obtain ⟨a, ha⟩ := hanswers item s
    rw [Durable.forEach_cons_trace ha]
    by_cases hitem : item = mine
    · subst hitem
      obtain ⟨q, hq, hPq⟩ := hmine p s hs hready
      obtain ⟨r, hr⟩ := follows_forEach hanswers hround rest q _ (hq.final hs)
      exact ⟨r, hq.append hr, hr.keeps hkeep hPq⟩
    · obtain ⟨q, hq⟩ := hround item p s hs
      have hrest := (List.mem_cons.mp hmem).resolve_left (Ne.symm hitem)
      obtain ⟨r, hr, hPr⟩ := ih hrest q _ (hq.final hs) (hothers item hitem s hready)
      exact ⟨r, hq.append hr, hPr⟩

end Loops

/-! ## Runs of calls -/

section Runs

variable {Holds : ρ → σ → Prop} {Next : ρ → ρ → Prop} (states : κ → σ → List σ)

/-- If every call of a run follows the system, so does the history of the run,
and the run ends in a state that shows the phase the history ends in. -/
theorem follows_history : ∀ (attempts : List (κ × Nat)),
    (∀ attempt ∈ attempts, ∀ p s, Holds p s →
      ∃ q, Follows Holds Next p (states attempt.1 s) q) →
    ∀ (p : ρ) (s : σ), Holds p s → ∃ q, Follows Holds Next p (history states s attempts) q ∧
      Holds q (run states s attempts) := by
  intro attempts
  induction attempts with
  | nil => exact fun _ p s hs => ⟨p, .nil p, hs⟩
  | cons attempt rest ih =>
    intro hcalls p s hs
    obtain ⟨q, hq⟩ := hcalls attempt List.mem_cons_self p s hs
    obtain ⟨r, hr⟩ := hq.take attempt.2
    obtain ⟨t, hhistory, ht⟩ :=
      ih (fun later hlater => hcalls later (List.mem_cons_of_mem attempt hlater)) r _ (hr.final hs)
    exact ⟨t, hr.append hhistory, ht⟩

/-- A run with a call that nothing interrupts and that ends with `P`, which no
step undoes, ends with `P`. -/
theorem follows_history_to {P : ρ → Prop} (hkeep : ∀ p q, Next p q → P p → P q) {p : ρ} {s : σ}
    {before after : List (κ × Nat)} {last : κ × Nat}
    (hcalls : ∀ attempt ∈ before ++ last :: after, ∀ p s, Holds p s →
      ∃ q, Follows Holds Next p (states attempt.1 s) q)
    (hwhole : (states last.1 (run states s before)).length ≤ last.2)
    (hlast : ∀ q, Holds q (run states s before) →
      ∃ r, Follows Holds Next q (states last.1 (run states s before)) r ∧ P r)
    (hs : Holds p s) :
    ∃ q, Follows Holds Next p (history states s (before ++ last :: after)) q ∧
      Holds q (run states s (before ++ last :: after)) ∧ P q := by
  obtain ⟨q, hq, hqs⟩ := follows_history states before
    (fun attempt hattempt => hcalls attempt (List.mem_append_left _ hattempt)) p s hs
  obtain ⟨r, hr, hPr⟩ := hlast q hqs
  have hcut : cut states (run states s before) last =
      (states last.1 (run states s before)).getLastD (run states s before) :=
    cut_of_length_le states _ last.1 hwhole
  obtain ⟨t, ht, hts⟩ := follows_history states after (fun attempt hattempt =>
    hcalls attempt (List.mem_append_right _ (List.mem_cons_of_mem last hattempt))) r _ (hr.final hqs)
  refine ⟨t, ?_, ?_, ht.keeps hkeep hPr⟩
  · rw [history_append, history, List.take_of_length_le hwhole, hcut]
    exact hq.append (hr.append ht)
  · rw [run_append, run_cons, hcut]
    exact hts

/-- A run whose first call shows `p` after its first step.  It ends with `P` if the first
call is whole and does, or a later call. -/
theorem follows_started {P : ρ → Prop} (hkeep : ∀ p q, Next p q → P p → P q) {p q : ρ}
    {s stored : σ} {rest : List σ} {first : κ} {steps : Nat} {attempts : List (κ × Nat)}
    (hfirst : states first s = stored :: rest) (hstored : Holds p stored)
    (hrest : Follows Holds Next p rest q) (hsteps : 0 < steps)
    (hcalls : ∀ attempt ∈ attempts, ∀ p s, Holds p s →
      ∃ q, Follows Holds Next p (states attempt.1 s) q)
    (hfinish : (states first s).length ≤ steps ∧ P q ∨
      ∃ before last after, attempts = before ++ last :: after ∧
        let t := run states s ((first, steps) :: before)
        (states last.1 t).length ≤ last.2 ∧
          ∀ q, Holds q t → ∃ r, Follows Holds Next q (states last.1 t) r ∧ P r) :
    ∃ r later, history states s ((first, steps) :: attempts) = stored :: later ∧
      Follows Holds Next p later r ∧ Holds r (run states s ((first, steps) :: attempts)) ∧ P r := by
  obtain ⟨n, rfl⟩ : ∃ n, steps = n + 1 := ⟨steps - 1, by omega⟩
  have hcut : cut states s (first, n + 1) = (rest.take n).getLastD stored := by
    rw [cut, hfirst, List.take_succ_cons, List.getLastD_cons]
  simp only [run_cons, hcut] at hfinish ⊢
  rw [history, hfirst, List.take_succ_cons, hcut, List.cons_append]
  refine (?_ : ∃ r, _).imp fun r hr => ⟨_, rfl, hr⟩
  rcases hfinish with ⟨hwhole, hq⟩ | ⟨before, last, after, rfl, hwhole, hlast⟩
  · rw [hfirst, List.length_cons] at hwhole
    rw [List.take_of_length_le (Nat.le_of_succ_le_succ hwhole)]
    obtain ⟨r, hr, hrs⟩ := follows_history states attempts hcalls _ _ (hrest.final hstored)
    exact ⟨r, hrest.append hr, hrs, hr.keeps hkeep hq⟩
  · obtain ⟨p', hp'⟩ := hrest.take n
    obtain ⟨r, hr, hrs, hP⟩ :=
      follows_history_to states hkeep hcalls hwhole hlast (hp'.final hstored)
    exact ⟨r, hp'.append hr, hrs, hP⟩

end Runs

end YawnApp.Foundation
