/-
  Foundation/Budget.lean --- Programs that spend a shared budget.

  A counter that is passed along by reference, added to by every read and
  compared with a limit after each addition, makes the outcome of one program
  depend on what others spent before it.  `Spending` is such a program by what it
  asks for: the charges it makes, each with the failure that an overdraft turns
  into, and what it answers when all of them are paid.  `run` is its meaning on a
  counter; a sequence of programs runs like one program after the other
  (`run_bind`).  The rest says what a counter that did not start at zero changes:
  nothing while the charges can be paid, and otherwise the first charge that
  cannot be paid decides.
-/
import Mathlib.Algebra.GroupWithZero.Nat
import Mathlib.Data.List.Basic

set_option autoImplicit false

namespace YawnApp.Foundation

/-- An amount and the failure it turns into when it overdraws the budget. -/
structure Charge (ε : Type) where
  amount : Nat
  overdraft : ε

/-- A program by its charges and its answer once they are paid. -/
structure Spending (ε α : Type) where
  charges : List (Charge ε)
  answer : Except ε α

/-- The sum of charges. -/
def charged {ε : Type} (charges : List (Charge ε)) : Nat := (charges.map Charge.amount).sum

/-- Pay charges one after the other.  The counter keeps the charge that
overdraws it. -/
def pay {ε : Type} (limit : Nat) : Nat → List (Charge ε) → Except ε Unit × Nat
  | total, [] => (.ok (), total)
  | total, charge :: rest =>
    if total + charge.amount > limit then (.error charge.overdraft, total + charge.amount)
    else pay limit (total + charge.amount) rest

/-- The first charge that cannot be paid. -/
def overdrawn {ε : Type} (limit : Nat) : Nat → List (Charge ε) → Option ε
  | _, [] => none
  | total, charge :: rest =>
    if total + charge.amount > limit then some charge.overdraft
    else overdrawn limit (total + charge.amount) rest

namespace Spending

variable {ε α β : Type}

instance : Monad (Spending ε) where
  pure a := ⟨[], .ok a⟩
  bind s k :=
    match s.answer with
    | .ok a => ⟨s.charges ++ (k a).charges, (k a).answer⟩
    | .error e => ⟨s.charges, .error e⟩

/-- An answer that costs nothing. -/
def lift (answer : Except ε α) : Spending ε α := ⟨[], answer⟩

/-- A charge. -/
def charge (amount : Nat) (overdraft : ε) : Spending ε Unit := ⟨[⟨amount, overdraft⟩], .ok ()⟩

/-- The same program with its failures translated. -/
def mapError {δ : Type} (translate : ε → δ) (s : Spending ε α) : Spending δ α where
  charges := s.charges.map fun charge => ⟨charge.amount, translate charge.overdraft⟩
  answer := s.answer.mapError translate

/-- The program on a counter that stands at `total`. -/
def run (limit total : Nat) (s : Spending ε α) : Except ε α × Nat :=
  match pay limit total s.charges with
  | (.ok (), total) => (s.answer, total)
  | (.error e, total) => (.error e, total)

end Spending

variable {ε α β : Type} {limit total : Nat} {charges : List (Charge ε)} {s : Spending ε α}

@[simp] theorem charged_cons (charge : Charge ε) (rest : List (Charge ε)) :
    charged (charge :: rest) = charge.amount + charged rest := by
  rw [charged, List.map_cons, List.sum_cons]
  rfl

/-! ## Overdrafts -/

theorem pay_of_not_overdrawn : ∀ {total : Nat}, overdrawn limit total charges = none →
    pay limit total charges = (.ok (), total + charged charges) := by
  induction charges with
  | nil => exact fun _ => rfl
  | cons charge rest ih =>
    intro total h
    rw [overdrawn] at h
    rw [pay]
    split at h
    · cases h
    · rw [if_neg ‹_›, ih h, charged_cons, Nat.add_assoc]

theorem pay_of_overdrawn {e : ε} : ∀ {total : Nat}, overdrawn limit total charges = some e →
    ∃ spent, pay limit total charges = (.error e, spent) ∧ limit < spent := by
  induction charges with
  | nil =>
    intro total h
    cases h
  | cons charge rest ih =>
    intro total h
    rw [overdrawn] at h
    rw [pay]
    split at h
    · rename_i hover
      cases h
      rw [if_pos hover]
      exact ⟨_, rfl, hover⟩
    · rw [if_neg ‹_›]
      exact ih h

/-- Charges that can be paid add up to at most the limit. -/
theorem overdrawn_eq_none_iff : ∀ {total : Nat}, total ≤ limit →
    (overdrawn limit total charges = none ↔ total + charged charges ≤ limit) := by
  induction charges with
  | nil => exact fun h => iff_of_true rfl h
  | cons charge rest ih =>
    intro total h
    rw [overdrawn, charged_cons]
    split
    · rename_i hover
      exact iff_of_false nofun (by omega)
    · rename_i hfits
      rw [ih (Nat.not_lt.mp hfits), Nat.add_assoc]

/-- What can be paid from a counter can be paid from a lower one. -/
theorem not_overdrawn_of_le {lower : Nat} (hle : lower ≤ total) (htotal : total ≤ limit)
    (h : overdrawn limit total charges = none) : overdrawn limit lower charges = none := by
  rw [overdrawn_eq_none_iff htotal] at h
  exact (overdrawn_eq_none_iff (Nat.le_trans hle htotal)).mpr (by omega)

namespace Spending

theorem run_of_not_overdrawn (h : overdrawn limit total s.charges = none) :
    s.run limit total = (s.answer, total + charged s.charges) := by
  unfold run
  rw [pay_of_not_overdrawn h]

theorem run_of_overdrawn {e : ε} (h : overdrawn limit total s.charges = some e) :
    ∃ spent, s.run limit total = (.error e, spent) ∧ limit < spent := by
  obtain ⟨spent, hpay, hover⟩ := pay_of_overdrawn h
  refine ⟨spent, ?_, hover⟩
  unfold run
  rw [hpay]

/-- Nothing can be charged to a counter that is overdrawn. -/
theorem overdrawn_cons_of_lt (h : limit < total) (charge : Charge ε) (rest : List (Charge ε)) :
    overdrawn limit total (charge :: rest) = some charge.overdraft := by
  rw [overdrawn, if_pos (by omega)]

theorem bind_of_ok {a : α} (k : α → Spending ε β) (h : s.answer = .ok a) :
    s >>= k = ⟨s.charges ++ (k a).charges, (k a).answer⟩ := by
  change (match s.answer with
    | .ok a => ⟨s.charges ++ (k a).charges, (k a).answer⟩
    | .error e => ⟨s.charges, .error e⟩ : Spending ε β) = _
  rw [h]

theorem bind_of_error {e : ε} (k : α → Spending ε β) (h : s.answer = .error e) :
    s >>= k = ⟨s.charges, .error e⟩ := by
  change (match s.answer with
    | .ok a => ⟨s.charges ++ (k a).charges, (k a).answer⟩
    | .error e => ⟨s.charges, .error e⟩ : Spending ε β) = _
  rw [h]

/-- A program that answers did so after each of its parts. -/
theorem bind_answer_eq_ok {k : α → Spending ε β} {b : β} :
    (s >>= k).answer = .ok b ↔ ∃ a, s.answer = .ok a ∧ (k a).answer = .ok b := by
  cases h : s.answer with
  | ok =>
    rw [bind_of_ok k h]
    simp
  | error =>
    rw [bind_of_error k h]
    simp

/-- What is left of a program on a counter that is overdrawn: its first charge
fails. -/
def broke (s : Spending ε α) : Except ε α :=
  match s.charges with
  | [] => s.answer
  | charge :: _ => .error charge.overdraft

theorem run_of_lt (h : limit < total) :
    ∃ spent, s.run limit total = (s.broke, spent) ∧ limit < spent := by
  obtain ⟨charges, answer⟩ := s
  cases charges with
  | nil => exact ⟨total, rfl, h⟩
  | cons charge rest => exact run_of_overdrawn (overdrawn_cons_of_lt h charge rest)

/-! ## One program after the other

A list of programs shares the counter.  What each of them comes to is judged,
and a judgement can end the run. -/

section Each

variable {ι δ : Type} (program : ι → Spending ε α) (judge : Except ε α → Except δ β)

/-- Run programs in the order of a list. -/
def runEach (limit : Nat) : List ι → Nat → Except δ (List β)
  | [], _ => .ok []
  | i :: rest, total => do
    let (outcome, total) := (program i).run limit total
    let b ← judge outcome
    let later ← runEach limit rest total
    return b :: later

/-- What the programs of a list charge in all. -/
def spentBy (programs : List ι) : Nat := (programs.map fun i => charged (program i).charges).sum

variable {program judge} {programs before after : List ι} {i : ι}

@[simp] theorem spentBy_nil : spentBy program [] = 0 := rfl

@[simp] theorem spentBy_cons (i : ι) (rest : List ι) :
    spentBy program (i :: rest) = charged (program i).charges + spentBy program rest := by
  rw [spentBy, List.map_cons, List.sum_cons]
  rfl

/-- While the charges can be paid, each program comes to its own answer. -/
theorem runEach_append_of_le : ∀ {before : List ι} {total : Nat},
    total + spentBy program before ≤ limit → runEach program judge limit (before ++ after) total =
      (do
        let first ← before.mapM fun i => judge (program i).answer
        let later ← runEach program judge limit after (total + spentBy program before)
        return first ++ later) := by
  intro before
  induction before with
  | nil =>
    intro total _
    simp only [List.nil_append, List.mapM_nil, spentBy_nil, Nat.add_zero, pure_bind]
    exact (bind_pure _).symm
  | cons i rest ih =>
    intro total h
    rw [spentBy_cons] at h
    have hpaid : overdrawn limit total (program i).charges = none :=
      (overdrawn_eq_none_iff (by omega)).mpr (by omega)
    rw [List.cons_append, runEach, run_of_not_overdrawn hpaid, List.mapM_cons, spentBy_cons]
    simp only [ih (show total + charged (program i).charges + spentBy program rest ≤ limit by omega),
      bind_assoc, pure_bind, Nat.add_assoc]
    rfl

theorem runEach_of_le (h : total + spentBy program programs ≤ limit) :
    runEach program judge limit programs total =
      programs.mapM fun i => judge (program i).answer := by
  have hwhole : runEach program judge limit (programs ++ []) total = _ := runEach_append_of_le h
  rw [List.append_nil] at hwhole
  rw [hwhole, runEach]
  simp only [pure, Except.pure, bind, Except.bind, List.append_nil]
  cases programs.mapM fun i => judge (program i).answer <;> rfl

/-- After an overdraft nothing more can be charged. -/
theorem runEach_of_lt : ∀ {programs : List ι} {total : Nat}, limit < total →
    runEach program judge limit programs total = programs.mapM fun i => judge (program i).broke := by
  intro programs
  induction programs with
  | nil => exact fun _ => rfl
  | cons i rest ih =>
    intro total h
    obtain ⟨spent, hrun, hspent⟩ := run_of_lt (s := program i) h
    rw [runEach, hrun, List.mapM_cons]
    simp only [ih hspent]

/-- Where the budget is overdrawn. -/
theorem exists_overdraft : ∀ {programs : List ι} {total : Nat}, total ≤ limit →
    limit < total + spentBy program programs →
    ∃ before i after e, programs = before ++ i :: after ∧ total + spentBy program before ≤ limit ∧
      overdrawn limit (total + spentBy program before) (program i).charges = some e := by
  intro programs
  induction programs with
  | nil =>
    intro total hle hlt
    rw [spentBy_nil] at hlt
    omega
  | cons i rest ih =>
    intro total hle hlt
    cases hover : overdrawn limit total (program i).charges with
    | some e => exact ⟨[], i, rest, e, rfl, hle, hover⟩
    | none =>
      rw [overdrawn_eq_none_iff hle] at hover
      rw [spentBy_cons] at hlt
      obtain ⟨before, j, after, e, hsplit, hfits, hover'⟩ := ih hover (by omega)
      refine ⟨i :: before, j, after, e, by rw [hsplit, List.cons_append], ?_, ?_⟩
      · rw [spentBy_cons]
        omega
      · rw [spentBy_cons, ← Nat.add_assoc]
        exact hover'

/-- A run whose budget is overdrawn: the programs before come to their answers,
the one that overdraws it to that failure, and those after it can charge
nothing. -/
theorem runEach_of_overdrawn {e : ε} (hfits : total + spentBy program before ≤ limit)
    (hover : overdrawn limit (total + spentBy program before) (program i).charges = some e) :
    runEach program judge limit (before ++ i :: after) total =
      (do
        let first ← before.mapM fun i => judge (program i).answer
        let b ← judge (.error e)
        let later ← after.mapM fun i => judge (program i).broke
        return first ++ b :: later) := by
  obtain ⟨spent, hrun, hspent⟩ := run_of_overdrawn hover
  rw [runEach_append_of_le hfits, runEach, hrun]
  simp only [runEach_of_lt hspent, bind_assoc, pure_bind]

end Each

end Spending

end YawnApp.Foundation
